import Mathlib.Logic.Function.Basic
import RiscvEmulator.Library.ExceptList

/-!
# Histories of writes

A store that only a history of writes has touched holds, at every key, the value of the
last write of that key, and what it held at the start where no write has it. The same
holds of any reading of a state that each update either replaces or keeps.
-/
namespace RiscvEmulator.Library.WriteHistory

variable {κ ν : Type} [DecidableEq κ]

/-- The value of the last write of `key`, oldest write first. -/
def lastWrite (key : κ) : List (κ × ν) → Option ν
  | [] => none
  | (k, value) :: later => (lastWrite key later).or (if k = key then some value else none)

/-- The store after a history of writes. -/
def applyWrites (store : κ → ν) (writes : List (κ × ν)) : κ → ν :=
  writes.foldl (fun store write => Function.update store write.1 write.2) store

theorem applyWrites_append (store : κ → ν) (before after : List (κ × ν)) :
    applyWrites store (before ++ after) = applyWrites (applyWrites store before) after :=
  List.foldl_append

theorem applyWrites_singleton (store : κ → ν) (key : κ) (value : ν) :
    applyWrites store [(key, value)] = Function.update store key value := rfl

/-- The store holds the last writes over what it held at the start. -/
theorem applyWrites_eq (store : κ → ν) (writes : List (κ × ν)) (key : κ) :
    applyWrites store writes key = (lastWrite key writes).getD (store key) := by
  induction writes generalizing store with
  | nil => rfl
  | cons write later ih =>
    have hstep : applyWrites store (write :: later) =
        applyWrites (Function.update store write.1 write.2) later := rfl
    rw [hstep, ih, lastWrite]
    cases lastWrite key later with
    | some value => rfl
    | none =>
      by_cases hkey : write.1 = key
      · subst hkey
        simp
      · simp [hkey, Function.update_of_ne (Ne.symm hkey)]

/-- What the last update to give a value gave, oldest update first. -/
def lastGiven {υ : Type} (given : υ → Option ν) (updates : List υ) : Option ν :=
  updates.reverse.findSome? given

/-- If each update replaces a reading by what it gives, and keeps it where it gives nothing, a
run of updates replaces it by what was given last. -/
theorem foldl_eq_lastGiven {σ υ : Type} {apply : σ → υ → σ} {reading : σ → ν}
    {given : υ → Option ν}
    (hstep : ∀ state update, reading (apply state update) = (given update).getD (reading state))
    (state : σ) (updates : List υ) :
    reading (updates.foldl apply state) = (lastGiven given updates).getD (reading state) := by
  induction updates generalizing state with
  | nil => rfl
  | cons update later ih =>
    rw [List.foldl_cons, ih, hstep]
    simp only [lastGiven, List.reverse_cons, List.findSome?_append]
    cases later.reverse.findSome? given with
    | some value => rfl
    | none => cases hgiven : given update <;> simp [hgiven]

theorem lastGiven_cons {υ : Type} (given : υ → Option ν) (update : υ) (later : List υ) :
    lastGiven given (update :: later) = (lastGiven given later).or (given update) := by
  unfold lastGiven
  rw [List.reverse_cons, List.findSome?_append, List.findSome?_singleton]

/-- The same for updates that may fail, from a state with an invariant that they keep. -/
theorem foldlM_eq_lastGiven {ε σ υ : Type} {apply : σ → υ → Except ε σ} {Inv : σ → Prop}
    {reading : σ → ν} {given : υ → Option ν}
    (hkeep : ∀ state update state', Inv state → apply state update = .ok state' → Inv state')
    (hstep : ∀ state update state', Inv state → apply state update = .ok state' →
      reading state' = (given update).getD (reading state))
    {state last : σ} {updates : List υ} (hinit : Inv state)
    (h : updates.foldlM apply state = .ok last) :
    Inv last ∧ reading last = (lastGiven given updates).getD (reading state) := by
  induction updates generalizing state with
  | nil =>
    obtain rfl := Except.ok.inj h
    exact ⟨hinit, rfl⟩
  | cons update later ih =>
    rw [List.foldlM_cons] at h
    obtain ⟨middle, hfirst, hrest⟩ := ExceptList.bind_ok h
    obtain ⟨hinv, hreading⟩ := ih (hkeep _ _ _ hinit hfirst) hrest
    refine ⟨hinv, ?_⟩
    rw [hreading, hstep _ _ _ hinit hfirst, lastGiven_cons]
    cases lastGiven given later with
    | some value => rfl
    | none => rfl

end RiscvEmulator.Library.WriteHistory
