import RiscvEmulator.Source.Arena

/-!
# Arrays whose elements may fail to construct

The loops of `Arena::allocate<Arr>`, with the handler around the first of them, for an
item type whose constructor may throw. `construct i` is the object that the constructor of
element `i` throws, if it throws. The calls of constructors that complete and of
destructors are recorded in order, by the index of the element.
-/
namespace RiscvEmulator.Source

inductive ElementEvent where
  | constructed (index : Nat)
  | destroyed (index : Nat)
  deriving DecidableEq, Repr

/-- The loop over `i < itemCount`, with `remaining` elements to go: the events, where `i`
stands when the loop is left, and what was thrown. -/
def constructLoop (construct : Nat → Option Thrown) :
    Nat → Nat → List ElementEvent × Nat × Option Thrown
  | 0, i => ([], i, none)
  | remaining + 1, i =>
    match construct i with
    | some object => ([], i, some object)
    | none =>
      let (events, stop) := constructLoop construct remaining (i + 1)
      (.constructed i :: events, stop)

/-- `for (; i != 0; i--) std::destroy_at(&ptr[i]);`. -/
def destroyLoop : Nat → List ElementEvent
  | 0 => []
  | i + 1 => .destroyed (i + 1) :: destroyLoop i

/-- How a call ends, what it did to the elements, and the arena it leaves. -/
structure ArrayCall where
  result : Except Abort Nat
  events : List ElementEvent
  arena : Arena

/-- `allocate<Arr>(itemCount)`, for items of `size` bytes. The handler rethrows, after the
free space was taken. -/
def Arena.allocateArrayOf (arena : Arena) (size alignment : Nat)
    (construct : Nat → Option Thrown) (itemCount : BitVec 64) : ArrayCall :=
  match arena.allocateRaw (size * itemCount.toNat % 2 ^ 64) alignment with
  | .error e => ⟨.error e, [], arena⟩
  | .ok (offset, arena) =>
    match constructLoop construct itemCount.toNat 0 with
    | (events, _, none) => ⟨.ok offset, events, arena⟩
    | (events, i, some object) => ⟨.error (.thrown object), events ++ destroyLoop i, arena⟩

/-- Where no constructor throws, the loop constructs every element, in order. -/
theorem constructLoop_of_none (construct : Nat → Option Thrown) (remaining i : Nat)
    (hnone : ∀ j, i ≤ j → j < i + remaining → construct j = none) :
    constructLoop construct remaining i =
      ((List.range' i remaining).map .constructed, i + remaining, none) := by
  induction remaining generalizing i with
  | zero => rfl
  | succ remaining ih =>
    rw [constructLoop, hnone i (Nat.le_refl i) (by omega),
      ih (i + 1) (fun j hj hlt => hnone j (by omega) (by omega))]
    simp only [List.range'_succ, List.map_cons]
    rw [Nat.add_right_comm, Nat.add_assoc]

/-- The first constructor that throws leaves the loop, with `i` at its element. -/
theorem constructLoop_of_some {construct : Nat → Option Thrown} {object : Thrown}
    {remaining i k : Nat} (hthrows : construct k = some object) (hle : i ≤ k)
    (hlt : k < i + remaining) (hnone : ∀ j, i ≤ j → j < k → construct j = none) :
    constructLoop construct remaining i =
      ((List.range' i (k - i)).map .constructed, k, some object) := by
  induction remaining generalizing i with
  | zero => omega
  | succ remaining ih =>
    rcases Nat.lt_or_eq_of_le hle with hbefore | rfl
    · have hlength : k - i = k - (i + 1) + 1 := by omega
      rw [constructLoop, hnone i (Nat.le_refl i) hbefore,
        ih hbefore (by omega) (fun j hj hjk => hnone j (by omega) hjk), hlength,
        List.range'_succ, List.map_cons]
    · rw [constructLoop, hthrows, Nat.sub_self]
      rfl

/-- Items that never throw: the call is the one that writes their bytes. -/
theorem Arena.allocateArrayOf_eq_allocateArray {arena arena' : Arena} {type : ItemType}
    {itemCount : BitVec 64} {offset : Nat}
    (h : arena.allocateArray type itemCount = .ok (offset, arena')) :
    (arena.allocateArrayOf type.size type.alignment (fun _ => none) itemCount).result =
        .ok offset ∧
      (arena.allocateArrayOf type.size type.alignment (fun _ => none) itemCount).events =
        (List.range itemCount.toNat).map .constructed ∧
      (arena.allocateArrayOf type.size type.alignment (fun _ => none) itemCount).arena.freeSpace =
        arena'.freeSpace := by
  obtain ⟨⟨start, cursor⟩, hraw, h⟩ := Library.ExceptList.bind_ok h
  obtain ⟨filled, hitems, h⟩ := Library.ExceptList.bind_ok h
  obtain ⟨rfl, rfl⟩ := Prod.mk.inj (Except.ok.inj h)
  obtain ⟨-, hfree, -⟩ := Arena.withItems_ok hitems
  have hloop := constructLoop_of_none (fun _ => none) itemCount.toNat 0 (fun _ _ _ => rfl)
  unfold Arena.allocateArrayOf
  rw [hraw]
  dsimp only
  rw [hloop, ← List.range_eq_range']
  exact ⟨rfl, rfl, hfree.symm⟩

end RiscvEmulator.Source
