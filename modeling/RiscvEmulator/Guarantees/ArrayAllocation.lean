import RiscvEmulator.Guarantees.ArenaQuery

/-!
# The bytes of an array allocation

`allocate<Item[]>` asks for `sizeof(Item) * itemCount` bytes, a product of two `size_t`.
Below `2 ^ 64` the product is the size of the array and the call is covered by what it
asked for. From there on it has wrapped; if there is room for the wrapped size, the
construction loop, which counts the items, writes past the storage.
-/
namespace RiscvEmulator.Guarantees
open Source Library.ExceptList

variable {arena : Arena} {type : ItemType} {itemCount : BitVec 64}

/-- The call throws and leaves the free space as it was, or the span it returns is inside
the storage, byte by byte. -/
def ArrayCovered (arena : Arena) (type : ItemType) (itemCount : BitVec 64) : Prop :=
  (arena.allocateArray type itemCount = throwValue .badAlloc ∧
    (arena.afterCall (arena.allocateArray type itemCount)).getFreeSpace = arena.getFreeSpace) ∨
  ∃ offset arena', arena.allocateArray type itemCount = .ok (offset, arena') ∧
    offset + itemCount.toNat * type.size ≤ arena'.raw.length

/-- The size in bytes wraps, to one there is room for. -/
def WrapsToRoom (arena : Arena) (type : ItemType) (itemCount : BitVec 64) : Prop :=
  2 ^ 64 ≤ type.size * itemCount.toNat ∧
    HasRoom arena (type.size * itemCount.toNat % 2 ^ 64) type.alignment

section Calls

theorem allocateArray_of_no_room
    (h : ¬HasRoom arena (type.size * itemCount.toNat % 2 ^ 64) type.alignment) :
    arena.allocateArray type itemCount = throwValue .badAlloc := by
  unfold Arena.allocateArray
  dsimp only
  rw [allocateRaw_of_no_room h]
  rfl

/-- A size that does not wrap is the size of the array. -/
theorem allocateArray_of_hasRoom (hexact : type.size * itemCount.toNat < 2 ^ 64)
    (h : HasRoom arena (type.size * itemCount.toNat % 2 ^ 64) type.alignment) :
    ∃ offset arena', arena.allocateArray type itemCount = .ok (offset, arena') ∧
      offset + itemCount.toNat * type.size ≤ arena'.raw.length := by
  have hinside := room_inside h
  rw [Nat.mod_eq_of_lt hexact, Nat.mul_comm] at hinside
  obtain ⟨cursor, hraw⟩ := allocateRaw_of_hasRoom h
  obtain ⟨-, -, -, -, -, hstorage, -⟩ := Arena.allocateRaw_ok hraw
  obtain ⟨arena', hitems⟩ := @Arena.withItems_of_le cursor type
    (arena.getFreeOffset + padding arena type.alignment) itemCount.toNat
    (by rw [hstorage]; exact hinside)
  obtain ⟨-, -, hwritten⟩ := Arena.withItems_ok hitems
  refine ⟨arena.getFreeOffset + padding arena type.alignment, arena', ?_, ?_⟩
  · unfold Arena.allocateArray
    dsimp only
    rw [hraw, ok_bind]
    dsimp only
    rw [hitems]
    rfl
  · unfold Arena.raw at hinside ⊢
    rw [Arena.length_constructItems hwritten, hstorage]
    exact hinside

/-- A size that wraps to one there is room for lets the loop run past the storage. -/
theorem allocateArray_of_wrapsToRoom (hcapacity : arena.raw.length < 2 ^ 64)
    (h : WrapsToRoom arena type itemCount) :
    arena.allocateArray type itemCount = .error .undefinedBehaviour := by
  obtain ⟨hwraps, hroom⟩ := h
  obtain ⟨cursor, hraw⟩ := allocateRaw_of_hasRoom hroom
  obtain ⟨-, -, -, -, -, hstorage, -⟩ := Arena.allocateRaw_ok hraw
  have hpositive : 0 < itemCount.toNat := by
    apply Nat.pos_of_ne_zero
    intro hzero
    rw [hzero, Nat.mul_zero] at hwraps
    omega
  have hitems := @Arena.withItems_of_lt cursor type
    (arena.getFreeOffset + padding arena type.alignment) itemCount.toNat hpositive (by
      rw [hstorage, Nat.mul_comm]
      unfold Arena.raw at hcapacity
      omega)
  unfold Arena.allocateArray
  dsimp only
  rw [hraw, ok_bind]
  dsimp only
  rw [hitems]
  rfl

end Calls

/-- An array allocation covers what it returns exactly when its size does not wrap to one
there is room for. -/
theorem arrayCovered_iff (arena : Arena) (type : ItemType) (itemCount : BitVec 64)
    (hcapacity : arena.raw.length < 2 ^ 64) :
    ArrayCovered arena type itemCount ↔ ¬WrapsToRoom arena type itemCount := by
  constructor
  · intro hcovered hwraps
    have hundefined := allocateArray_of_wrapsToRoom hcapacity hwraps
    rcases hcovered with ⟨hthrow, -⟩ | ⟨offset, arena', hok, -⟩
    · rw [hundefined] at hthrow
      cases hthrow
    · rw [hundefined] at hok
      cases hok
  · intro hwraps
    by_cases hroom : HasRoom arena (type.size * itemCount.toNat % 2 ^ 64) type.alignment
    · have hexact : type.size * itemCount.toNat < 2 ^ 64 := by
        by_contra hlarge
        exact hwraps ⟨Nat.le_of_not_lt hlarge, hroom⟩
      exact .inr (allocateArray_of_hasRoom hexact hroom)
    · have hthrow := allocateArray_of_no_room hroom
      refine .inl ⟨hthrow, ?_⟩
      rw [hthrow]
      rfl

/-- `uint16_t`. -/
def halfword : ItemType := ⟨2, [0, 0], by decide, ⟨1, rfl⟩⟩

/-- Four half-words in eight bytes. -/
theorem arrayCovered_iff_four :
    ArrayCovered (Arena.new 16 8) halfword 4 ↔ ¬WrapsToRoom (Arena.new 16 8) halfword 4 :=
  arrayCovered_iff (Arena.new 16 8) halfword 4 (by simp [Arena.raw, Arena.new])

/-- `2 ^ 63` half-words are `2 ^ 64` bytes, which wrap to none. -/
theorem not_arrayCovered_halfword :
    ¬∀ (base capacity : Nat) (type : ItemType) (itemCount : BitVec 64), capacity < 2 ^ 64 →
      ArrayCovered (Arena.new base capacity) type itemCount := by
  intro h
  have hwraps : WrapsToRoom (Arena.new 16 8) halfword (1#64 <<< 63) :=
    ⟨by decide, by decide, by decide⟩
  have hundefined := @allocateArray_of_wrapsToRoom (Arena.new 16 8) _ _
    (by simp [Arena.raw, Arena.new]) hwraps
  rcases h 16 8 halfword (1#64 <<< 63) (by decide) with ⟨hthrow, -⟩ | ⟨offset, arena', hok, -⟩
  · rw [hundefined] at hthrow
    cases hthrow
  · rw [hundefined] at hok
    cases hok

end RiscvEmulator.Guarantees
