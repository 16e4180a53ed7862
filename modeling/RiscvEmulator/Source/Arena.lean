import RiscvEmulator.Library.ByteBuffer
import RiscvEmulator.Library.ExceptList
import RiscvEmulator.Source.Base

/-!
# The guest memory arena

Embeds src/riscv/utils/arena.hpp. An address is a natural number and `base` is the
address of `storage.data()`; a pointer into the storage is kept as its offset. Items
are trivially constructible types given by their size, alignment and initial bytes, so
the source's handler that destroys a half-built array is not entered here;
`ArrayConstruction` has it.
-/
namespace RiscvEmulator.Source
open Library.ByteBuffer Library.ExceptList

/-- `std::align`: the aligned pointer and the space left, which shrinks by the padding. -/
def align (alignment size ptr space : Nat) : Option (Nat × Nat) :=
  let padding := (alignment - ptr % alignment) % alignment
  if size + padding ≤ space then some (ptr + padding, space - padding) else none

theorem align_eq_some {alignment size ptr space ptr' space' : Nat}
    (h : align alignment size ptr space = some (ptr', space')) :
    ∃ padding, padding = (alignment - ptr % alignment) % alignment ∧ size + padding ≤ space ∧
      ptr' = ptr + padding ∧ space' = space - padding := by
  unfold align at h
  simp only at h
  split at h
  · next hfit =>
    obtain ⟨hptr, hspace⟩ := Prod.mk.inj (Option.some.inj h)
    exact ⟨_, rfl, hfit, hptr.symm, hspace.symm⟩
  · cases h

/-- A complete object type: its size, its alignment and what its constructor writes. -/
structure ItemType where
  alignment : Nat
  initial : List Byte
  sized : 0 < initial.length
  aligned : ∃ n, alignment = 2 ^ n

namespace ItemType

def size (type : ItemType) : Nat := type.initial.length

/-- `uint8_t`. -/
def byte : ItemType := ⟨1, [0], by decide, ⟨0, rfl⟩⟩

end ItemType

structure Arena where
  base : Nat
  storage : List Byte
  freeSpace : Nat
  free_le : freeSpace ≤ storage.length

namespace Arena

def new (base capacity : Nat) : Arena where
  base := base
  storage := List.replicate capacity 0
  freeSpace := capacity
  free_le := by rw [List.length_replicate]

def raw (arena : Arena) : List Byte := arena.storage

def getFreeSpace (arena : Arena) : Nat := arena.freeSpace

def getFreeOffset (arena : Arena) : Nat := arena.storage.length - arena.freeSpace

/-- A null pointer, which only an empty storage can have, reads as a failed `std::align`. -/
def getFreeOffsetAlignedTo (arena : Arena) (type : ItemType) : Nat :=
  match align type.alignment type.size (arena.base + arena.getFreeOffset) arena.freeSpace with
  | none => arena.storage.length
  | some (ptr, _) => if ptr = 0 then arena.storage.length else ptr - arena.base

/-- Returns the offset of the pointer with the arena whose `freeSpace` was updated. -/
def allocateRaw (arena : Arena) (size alignment : Nat) : Except Abort (Nat × Arena) :=
  match halign : align alignment size (arena.base + arena.getFreeOffset) arena.freeSpace with
  | none => throwValue .badAlloc
  | some (ptr, freeSpace) =>
    if ptr = 0 then throwValue .badAlloc
    else .ok (ptr - arena.base, { arena with
      freeSpace := freeSpace
      free_le := by
        obtain ⟨padding, -, -, -, hspace⟩ := align_eq_some halign
        have := arena.free_le
        omega })

theorem allocateRaw_ok {arena arena' : Arena} {size alignment offset : Nat}
    (h : arena.allocateRaw size alignment = .ok (offset, arena')) :
    ∃ padding, padding = (alignment - (arena.base + arena.getFreeOffset) % alignment) % alignment ∧
      size + padding ≤ arena.freeSpace ∧ offset = arena.getFreeOffset + padding ∧
      arena'.base = arena.base ∧ arena'.storage = arena.storage ∧
      arena'.freeSpace = arena.freeSpace - padding := by
  unfold allocateRaw at h
  split at h
  · cases h
  · next ptr freeSpace halign =>
    obtain ⟨padding, hpadding, hfit, hptr, hspace⟩ := align_eq_some halign
    split at h
    · cases h
    · obtain ⟨hoffset, harena⟩ := Prod.mk.inj (Except.ok.inj h)
      subst harena
      refine ⟨padding, hpadding, hfit, ?_, rfl, rfl, hspace⟩
      rw [← hoffset, hptr]
      omega

/-- The construction loop: item `i` is written at `offset + i * size`. -/
def constructItems (type : ItemType) (storage : List Byte) (offset : Nat) :
    Nat → Except Abort (List Byte)
  | 0 => .ok storage
  | itemCount + 1 => do
    let storage ← constructItems type storage offset itemCount
    match writeAt storage (offset + itemCount * type.size) type.initial with
    | some storage => .ok storage
    | none => .error .undefinedBehaviour

theorem length_constructItems {type : ItemType} {storage storage' : List Byte} {offset : Nat}
    {itemCount : Nat} (h : constructItems type storage offset itemCount = .ok storage') :
    storage'.length = storage.length := by
  induction itemCount generalizing storage' with
  | zero => rw [← Except.ok.inj h]
  | succ itemCount ih =>
    obtain ⟨previous, hprevious, h⟩ := bind_ok h
    split at h
    · next hwrite => rw [← Except.ok.inj h, length_of_writeAt hwrite, ih hprevious]
    · cases h

/-- The loop runs to its end if the last item ends inside the storage. -/
theorem constructItems_of_le {type : ItemType} {storage : List Byte} {offset itemCount : Nat}
    (hfit : offset + itemCount * type.size ≤ storage.length) :
    ∃ storage', constructItems type storage offset itemCount = .ok storage' := by
  induction itemCount with
  | zero => exact ⟨storage, rfl⟩
  | succ itemCount ih =>
    rw [Nat.succ_mul] at hfit
    obtain ⟨previous, hprevious⟩ := ih (by omega)
    have hlast : offset + itemCount * type.size + type.initial.length ≤ previous.length := by
      rw [length_constructItems hprevious]
      unfold ItemType.size at hfit ⊢
      omega
    obtain ⟨written, hwrite⟩ := writeAt_of_le hlast
    unfold constructItems
    rw [hprevious, ok_bind, hwrite]
    exact ⟨written, rfl⟩

/-- The loop throws nothing. -/
theorem constructItems_error {type : ItemType} {storage : List Byte} {offset itemCount : Nat}
    {e : Abort} (h : constructItems type storage offset itemCount = .error e) :
    e = .undefinedBehaviour := by
  induction itemCount with
  | zero => cases h
  | succ itemCount ih =>
    rcases bind_error h with hprevious | ⟨previous, -, hwrite⟩
    · exact ih hprevious
    · split at hwrite
      · cases hwrite
      · exact (Except.error.inj hwrite).symm

/-- Otherwise it writes past the storage. -/
theorem constructItems_of_lt {type : ItemType} {storage : List Byte} {offset itemCount : Nat}
    (hpositive : 0 < itemCount) (hpast : storage.length < offset + itemCount * type.size) :
    constructItems type storage offset itemCount = .error .undefinedBehaviour := by
  cases hitems : constructItems type storage offset itemCount with
  | error e => rw [constructItems_error hitems]
  | ok storage' =>
    cases itemCount with
    | zero => omega
    | succ itemCount =>
      obtain ⟨previous, hprevious, hlast⟩ := bind_ok hitems
      split at hlast
      · next written hwrite =>
        have hfit := fits_of_writeAt hwrite
        rw [length_constructItems hprevious] at hfit
        rw [Nat.succ_mul] at hpast
        unfold ItemType.size at hfit hpast
        omega
      · cases hlast

/-- Stores the constructed items; `freeSpace` stays as `allocateRaw` left it. -/
def withItems (arena : Arena) (type : ItemType) (offset itemCount : Nat) : Except Abort Arena :=
  match h : constructItems type arena.storage offset itemCount with
  | .ok storage => .ok { arena with
      storage := storage
      free_le := by
        rw [length_constructItems h]
        exact arena.free_le }
  | .error e => .error e

theorem withItems_ok {arena arena' : Arena} {type : ItemType} {offset itemCount : Nat}
    (h : arena.withItems type offset itemCount = .ok arena') :
    arena'.base = arena.base ∧ arena'.freeSpace = arena.freeSpace ∧
      constructItems type arena.storage offset itemCount = .ok arena'.storage := by
  unfold withItems at h
  split at h
  · next storage hitems =>
    obtain rfl := Except.ok.inj h
    exact ⟨rfl, rfl, hitems⟩
  · cases h

theorem withItems_of_le {arena : Arena} {type : ItemType} {offset itemCount : Nat}
    (hfit : offset + itemCount * type.size ≤ arena.storage.length) :
    ∃ arena', arena.withItems type offset itemCount = .ok arena' := by
  obtain ⟨storage, hitems⟩ := constructItems_of_le hfit
  unfold withItems
  split
  · exact ⟨_, rfl⟩
  · next e herror =>
    rw [hitems] at herror
    cases herror

theorem withItems_of_lt {arena : Arena} {type : ItemType} {offset itemCount : Nat}
    (hpositive : 0 < itemCount) (hpast : arena.storage.length < offset + itemCount * type.size) :
    arena.withItems type offset itemCount = .error .undefinedBehaviour := by
  have hitems := constructItems_of_lt hpositive hpast
  unfold withItems
  split
  · next storage hok =>
    rw [hitems] at hok
    cases hok
  · next e herror =>
    rw [hitems] at herror
    rw [← Except.error.inj herror]

/-- `allocate<Object>(args...)`, for arguments that give `type.initial`. -/
def allocateObject (arena : Arena) (type : ItemType) : Except Abort (Nat × Arena) := do
  let (offset, arena) ← arena.allocateRaw type.size type.alignment
  let arena ← arena.withItems type offset 1
  return (offset, arena)

/-- `allocate<Arr>(itemCount)`; the size in bytes is a product of two `size_t`. -/
def allocateArray (arena : Arena) (type : ItemType) (itemCount : BitVec 64) :
    Except Abort (Nat × Arena) := do
  let size := type.size * itemCount.toNat % 2 ^ 64
  let (offset, arena) ← arena.allocateRaw size type.alignment
  let arena ← arena.withItems type offset itemCount.toNat
  return (offset, arena)

/-- The arena a caller is left with: a call that throws has stored nothing. -/
def afterCall (arena : Arena) (call : Except Abort (Nat × Arena)) : Arena :=
  match call with
  | .ok (_, arena) => arena
  | .error _ => arena

end Arena
end RiscvEmulator.Source
