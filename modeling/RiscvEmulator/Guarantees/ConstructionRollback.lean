import RiscvEmulator.Source.ArrayConstruction

/-!
# Rolling back a failing array construction

When the constructor of element `k` throws, the handler of `allocate<Item[]>` counts the
index down from `k` to 1 and destroys the element it stands at: element `k`, which was
never constructed, is destroyed and element 0 is not.
-/
namespace RiscvEmulator.Guarantees
open Source

/-- The constructor of element `k` throws, and none before it does. -/
structure FailsAt (construct : Nat → Option Thrown) (k : Nat) (object : Thrown) : Prop where
  throws : construct k = some object
  before : ∀ i, i < k → construct i = none

/-- The elements before `k` were destroyed, each exactly once, and no other. -/
def RolledBack (events : List ElementEvent) (k : Nat) : Prop :=
  ∀ i, events.count (.destroyed i) = if i < k then 1 else 0

theorem count_constructed (indices : List Nat) (i : Nat) :
    (indices.map ElementEvent.constructed).count (.destroyed i) = 0 := by
  rw [List.count_eq_zero]
  simp

/-- The handler destroys the elements 1 to `k`. -/
theorem count_destroyLoop (k i : Nat) :
    (destroyLoop k).count (.destroyed i) = if 1 ≤ i ∧ i ≤ k then 1 else 0 := by
  induction k with
  | zero =>
    rw [if_neg (by omega)]
    rfl
  | succ k ih =>
    rw [destroyLoop, List.count_cons, ih]
    by_cases hlast : i = k + 1
    · simp [hlast]
    · have hne : ¬ElementEvent.destroyed (k + 1) = .destroyed i := by
        intro h
        exact hlast (ElementEvent.destroyed.inj h).symm
      simp only [beq_iff_eq, if_neg hne, Nat.add_zero]
      exact if_congr (by omega) rfl rfl

section Call
variable {arena cursor : Arena} {size alignment offset : Nat} {construct : Nat → Option Thrown}
  {itemCount : BitVec 64} {k : Nat} {object : Thrown}

/-- The call in which element `k` fails, when its elements have a place. -/
theorem allocateArrayOf_of_failsAt
    (hraw : arena.allocateRaw (size * itemCount.toNat % 2 ^ 64) alignment = .ok (offset, cursor))
    (hk : k < itemCount.toNat) (hfails : FailsAt construct k object) :
    arena.allocateArrayOf size alignment construct itemCount =
      ⟨.error (.thrown object), (List.range k).map .constructed ++ destroyLoop k, cursor⟩ := by
  have hloop := @constructLoop_of_some construct object itemCount.toNat 0 k hfails.throws
    (Nat.zero_le k) (by omega) (fun j _ hj => hfails.before j hj)
  unfold Arena.allocateArrayOf
  rw [hraw]
  dsimp only
  rw [hloop, Nat.sub_zero, ← List.range_eq_range']

theorem count_events (k i : Nat) :
    ((List.range k).map ElementEvent.constructed ++ destroyLoop k).count (.destroyed i) =
      if 1 ≤ i ∧ i ≤ k then 1 else 0 := by
  rw [List.count_append, count_constructed, Nat.zero_add, count_destroyLoop]

end Call

/-- A failing construction is rolled back exactly when it fails at its first element; in
any case the elements destroyed are 1 to `k`. -/
theorem rolledBack_iff (arena cursor : Arena) (size alignment offset : Nat)
    (construct : Nat → Option Thrown) (itemCount : BitVec 64) (k : Nat) (object : Thrown)
    (hraw : arena.allocateRaw (size * itemCount.toNat % 2 ^ 64) alignment = .ok (offset, cursor))
    (hk : k < itemCount.toNat) (hfails : FailsAt construct k object) :
    (arena.allocateArrayOf size alignment construct itemCount).result = .error (.thrown object) ∧
      (∀ i, (arena.allocateArrayOf size alignment construct itemCount).events.count
        (.destroyed i) = if 1 ≤ i ∧ i ≤ k then 1 else 0) ∧
      (RolledBack (arena.allocateArrayOf size alignment construct itemCount).events k ↔ k = 0) := by
  rw [allocateArrayOf_of_failsAt hraw hk hfails]
  refine ⟨rfl, count_events k, ?_⟩
  unfold RolledBack
  simp only [count_events]
  constructor
  · intro hrolled
    by_contra hne
    have hfirst := hrolled 0
    rw [if_neg (by omega), if_pos (by omega)] at hfirst
    omega
  · rintro rfl i
    exact if_congr (by omega) rfl rfl

/-- The element that fails second of four. -/
def failsSecond (i : Nat) : Option Thrown := if i = 1 then some (.value .badAlloc) else none

theorem rolledBack_iff_second :
    RolledBack ((Arena.new 16 8).allocateArrayOf 2 2 failsSecond 4).events 1 ↔ 1 = 0 :=
  (rolledBack_iff (Arena.new 16 8) (Arena.new 16 8) 2 2 0 failsSecond 4 1 (.value .badAlloc) rfl
    (by decide) ⟨rfl, fun i hi => by simp [failsSecond, Nat.lt_one_iff.mp hi]⟩).2.2

/-- Element 0 stays, and element 1 is destroyed without having been constructed. -/
theorem not_rolledBack_second :
    ¬∀ (arena cursor : Arena) (size alignment offset : Nat) (construct : Nat → Option Thrown)
      (itemCount : BitVec 64) (k : Nat) (object : Thrown),
      arena.allocateRaw (size * itemCount.toNat % 2 ^ 64) alignment = .ok (offset, cursor) →
      k < itemCount.toNat → FailsAt construct k object →
      RolledBack (arena.allocateArrayOf size alignment construct itemCount).events k := by
  intro h
  have hrolled := h (Arena.new 16 8) (Arena.new 16 8) 2 2 0 failsSecond 4 1 (.value .badAlloc) rfl
    (by decide) ⟨rfl, fun i hi => by simp [failsSecond, Nat.lt_one_iff.mp hi]⟩
  have hfirst := hrolled 0
  cases hfirst

end RiscvEmulator.Guarantees
