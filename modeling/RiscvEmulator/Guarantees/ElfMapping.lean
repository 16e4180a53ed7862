import RiscvEmulator.Guarantees.ElfRanges

/-!
# Mapping the segments

The copies `mapDataSegments` and `mapCodeSegments` make. The data memory is allocated at
guest address 0 and zeroed, and the copies into it are apart; the copies into the code
memory follow one another and fill it.
-/
namespace RiscvEmulator.Guarantees
open Source Spec Library.ByteBuffer Library.ExceptList Library.Ranges

variable {Handler : Type} {native : Endian} {source : List Byte}

/-- The places of the buffer and the bytes that `copySegments` writes to them. -/
def copies (source : List Byte) (origin : Nat) (headers : List SegmentHeader) :
    List (Nat × List Byte) :=
  headers.map fun header => (origin + header.destinationStart.toNat, fileBytes source header)

section Copies
variable {headers : List SegmentHeader} {origin : Nat} {buffer buffer' : List Byte}

theorem copySegments_ok (h : copySegments source origin headers buffer = .ok buffer') :
    writeAll buffer (copies source origin headers) = some buffer' ∧
      ∀ header ∈ headers, header.sourceStart.toNat + header.sourceSize.toNat ≤ source.length := by
  induction headers generalizing buffer with
  | nil =>
    obtain rfl := Except.ok.inj h
    exact ⟨rfl, by simp⟩
  | cons header headers ih =>
    unfold copySegments at h
    split at h
    · cases h
    next bytes hread =>
    split at h
    · cases h
    next middle hwrite =>
    obtain ⟨hwrites, hbounds⟩ := ih h
    have hfit := (readAt_eq_some hread).1
    rw [readAt_of_le hfit] at hread
    obtain rfl := Option.some.inj hread
    constructor
    · unfold copies
      rw [List.map_cons, writeAll, fileBytes, hwrite]
      exact hwrites
    · intro other hother
      rcases List.mem_cons.mp hother with rfl | hother
      · exact hfit
      · exact hbounds other hother

theorem length_fileBytes {header : SegmentHeader}
    (hbounds : header.sourceStart.toNat + header.sourceSize.toNat ≤ source.length) :
    (fileBytes source header).length = header.sourceSize.toNat := by
  unfold fileBytes
  rw [List.length_take, List.length_drop]
  omega

theorem fileBytes_getElem? {header : SegmentHeader} {k : Nat}
    (hk : k < header.sourceSize.toNat) :
    (fileBytes source header)[k]? = source[header.sourceStart.toNat + k]? := by
  unfold fileBytes
  rw [List.getElem?_take_of_lt hk, List.getElem?_drop]

/-- Copies to disjoint ranges are apart when no segment is longer in the file. -/
theorem copies_apart
    (hbounds : ∀ header ∈ headers,
      header.sourceStart.toNat + header.sourceSize.toNat ≤ source.length)
    (hfits : ∀ header ∈ headers, header.sourceSize.toNat ≤ header.destinationSize.toNat)
    (hbefore : (headers.map destinationRange).Pairwise Range.Before) :
    (copies source origin headers).Pairwise Apart := by
  unfold copies
  rw [List.pairwise_map] at hbefore ⊢
  refine hbefore.imp_of_mem fun {a b} ha _ hab => .inl ?_
  have hlength := length_fileBytes (hbounds a ha)
  have hfit := hfits a ha
  unfold Range.Before at hab
  rw [destinationRange_stop, destinationRange_start] at hab
  show origin + a.destinationStart.toNat + (fileBytes source a).length ≤ _
  omega

end Copies

section Allocation
variable {memory : Arena} {base capacity origin : Nat} {total : BitVec 64}

/-- An array of bytes is zeroed and the rest of the storage is kept. -/
theorem constructItems_byte {storage storage' : List Byte} {offset count : Nat}
    (h : Arena.constructItems ItemType.byte storage offset count = .ok storage') (i : Nat) :
    storage'[i]? = if offset ≤ i ∧ i < offset + count then some 0 else storage[i]? := by
  induction count generalizing storage' with
  | zero =>
    obtain rfl := Except.ok.inj h
    rw [if_neg (by omega)]
  | succ count ih =>
    unfold Arena.constructItems at h
    obtain ⟨previous, hprevious, h⟩ := bind_ok h
    split at h
    next written hwrite =>
      obtain rfl := Except.ok.inj h
      replace hwrite : writeAt previous (offset + count) [0] = some written := by
        rw [← Nat.mul_one count]
        exact hwrite
      by_cases hlast : i = offset + count
      · have hwritten := getElem?_of_writeAt hwrite (k := 0) (by simp)
        rw [Nat.add_zero] at hwritten
        rw [hlast, hwritten, if_pos (by omega)]
        rfl
      · have houtside : i < offset + count ∨ offset + count + [(0 : Byte)].length ≤ i := by
          rw [List.length_singleton]
          omega
        rw [getElem?_of_writeAt_outside hwrite houtside, ih hprevious]
        exact if_congr (by omega) rfl rfl
    · cases h

/-- Bytes need no padding. -/
theorem allocateRaw_byte {arena : Arena} {size : Nat}
    (h : arena.allocateRaw size ItemType.byte.alignment = .ok (origin, memory)) :
    origin = arena.getFreeOffset ∧ size ≤ arena.freeSpace ∧ memory.storage = arena.storage ∧
      memory.freeSpace = arena.freeSpace := by
  obtain ⟨padding, hpadding, hfit, horigin, -, hstorage, hspace⟩ := Arena.allocateRaw_ok h
  have hpad : padding = 0 := by
    rw [hpadding]
    exact Nat.mod_one _
  rw [hpad] at hfit horigin hspace
  exact ⟨horigin, hfit, hstorage, hspace⟩

theorem byte_size_mul (total : BitVec 64) :
    ItemType.byte.size * total.toNat % 2 ^ 64 = total.toNat := by
  show 1 * total.toNat % 2 ^ 64 = total.toNat
  rw [Nat.one_mul, Nat.mod_eq_of_lt total.isLt]

/-- An array of bytes starts at the first free byte, and the free space stays as it is. -/
theorem allocateArray_byte {arena : Arena}
    (h : arena.allocateArray ItemType.byte total = .ok (origin, memory)) :
    origin = arena.getFreeOffset ∧ origin + total.toNat ≤ memory.storage.length ∧
      memory.freeSpace = arena.freeSpace ∧ ∀ i, memory.storage[i]? =
        if origin ≤ i ∧ i < origin + total.toNat then some 0 else arena.storage[i]? := by
  unfold Arena.allocateArray at h
  obtain ⟨⟨start, cursor⟩, hraw, h⟩ := bind_ok h
  obtain ⟨filled, hitems, h⟩ := bind_ok h
  obtain ⟨rfl, rfl⟩ := Prod.mk.inj (Except.ok.inj h)
  obtain ⟨hstart, hfit, hstorage, hspace⟩ := allocateRaw_byte hraw
  obtain ⟨-, hkept, hfilled⟩ := Arena.withItems_ok hitems
  refine ⟨hstart, ?_, hkept.trans hspace, fun i => ?_⟩
  · have hfree := arena.free_le
    rw [byte_size_mul] at hfit
    rw [Arena.length_constructItems hfilled, hstorage, hstart]
    unfold Arena.getFreeOffset
    omega
  · rw [constructItems_byte hfilled i, hstorage]

/-- The first array of bytes of an arena starts at guest address 0. -/
theorem allocateArray_fresh
    (h : (Arena.new base capacity).allocateArray ItemType.byte total = .ok (origin, memory)) :
    origin = 0 ∧ ∀ i, memory.storage[i]? =
      if i < total.toNat then some 0 else (Arena.new base capacity).storage[i]? := by
  obtain ⟨horigin, -, -, hmemory⟩ := allocateArray_byte h
  have hzero : origin = 0 := by
    rw [horigin]
    unfold Arena.getFreeOffset Arena.new
    rw [List.length_replicate, Nat.sub_self]
  refine ⟨hzero, fun i => ?_⟩
  rw [hmemory i, hzero]
  exact if_congr (by omega) rfl rfl

end Allocation

/-- What the data memory holds once `headers` are mapped into fresh memory. -/
structure DataMapped (source : List Byte) (headers : List SegmentHeader)
    (before after : List Byte) : Prop where
  bounds : ∀ header ∈ headers,
    header.sourceStart.toNat + header.sourceSize.toNat ≤ source.length
  copied : ∀ header ∈ headers, ∀ k, k < header.sourceSize.toNat →
    after[header.destinationStart.toNat + k]? = source[header.sourceStart.toNat + k]?
  zeroed : ∀ i, i < totalSize headers →
    (∀ header ∈ headers, i < header.destinationStart.toNat ∨
      header.destinationStart.toNat + header.sourceSize.toNat ≤ i) → after[i]? = some 0
  kept : ∀ i, totalSize headers ≤ i → after[i]? = before[i]?

section Map
variable {headers : List SegmentHeader} {emulator mapped loaded : Emulator Handler}
  {base capacity : Nat}

theorem arena_copySegments_ok {arena arena' : Arena} {origin : Nat}
    (h : arena.copySegments source origin headers = .ok arena') :
    arena'.freeSpace = arena.freeSpace ∧
      copySegments source origin headers arena.storage = .ok arena'.storage := by
  unfold Arena.copySegments at h
  split at h
  · next storage hcopy =>
    obtain rfl := Except.ok.inj h
    exact ⟨rfl, hcopy⟩
  · cases h

theorem allocateDataMemory_ok {memory allocated : Arena} {origin : Nat} {total : BitVec 64}
    (h : allocateDataMemory memory total = .ok (origin, allocated)) :
    memory.allocateArray ItemType.byte total = .ok (origin, allocated) := by
  unfold allocateDataMemory at h
  split at h
  · cases h
  · exact h

/-- Without data segments nothing happens; otherwise they are copied into a new array. -/
theorem mapDataSegments_cases (h : mapDataSegments headers source emulator = .ok mapped) :
    (headers = [] ∧ mapped = emulator) ∨
      ∃ last origin allocated filled, headers.getLast? = some last ∧
        emulator.memory.allocateArray ItemType.byte last.destinationEnd =
          .ok (origin, allocated) ∧
        filled.freeSpace = allocated.freeSpace ∧
        copySegments source origin headers allocated.storage = .ok filled.storage ∧
        mapped = { emulator with memory := filled } := by
  unfold mapDataSegments at h
  split at h
  · next hnone => exact .inl ⟨List.getLast?_eq_none_iff.mp hnone, (Except.ok.inj h).symm⟩
  next last hlast =>
  obtain ⟨⟨origin, allocated⟩, hallocate, h⟩ := bind_ok h
  obtain ⟨filled, hcopy, h⟩ := bind_ok h
  obtain rfl := Except.ok.inj h
  obtain ⟨hspace, hstorage⟩ := arena_copySegments_ok hcopy
  exact .inr ⟨last, origin, allocated, filled, hlast, allocateDataMemory_ok hallocate, hspace,
    hstorage, rfl⟩

theorem mapDataSegments_ok (hfresh : emulator.memory = Arena.new base capacity)
    (hbefore : (headers.map destinationRange).IsChain Range.Before)
    (hwrap : ∀ header ∈ headers, (destinationRange header).stop < 2 ^ 64)
    (hfits : ∀ header ∈ headers, header.sourceSize.toNat ≤ header.destinationSize.toNat)
    (h : mapDataSegments headers source emulator = .ok mapped) :
    DataMapped source headers emulator.memory.storage mapped.memory.storage := by
  have hstops := stop_le_totalSize hbefore hwrap
  rcases mapDataSegments_cases h with ⟨rfl, rfl⟩ |
    ⟨last, origin, memory, filled, hlast, hallocate, -, hcopy, rfl⟩
  · exact ⟨by simp, by simp, fun i hi => absurd hi (Nat.not_lt_zero i), fun _ _ => rfl⟩
  rw [hfresh] at hallocate
  obtain ⟨rfl, hmemory⟩ := allocateArray_fresh hallocate
  have htotal := totalSize_eq hlast
  rw [← htotal, ← hfresh] at hmemory
  obtain ⟨hwrites, hbounds⟩ := copySegments_ok hcopy
  have hapart : (copies source 0 headers).Pairwise Apart :=
    copies_apart hbounds hfits (Range.pairwise_before hbefore)
  have houtside {i : Nat} (hi : ∀ header ∈ headers, i < header.destinationStart.toNat ∨
      header.destinationStart.toNat + header.sourceSize.toNat ≤ i) :
      filled.storage[i]? = memory.storage[i]? := by
    refine getElem?_of_writeAll_outside hwrites fun write hmem => ?_
    obtain ⟨header, hheader, rfl⟩ := List.mem_map.mp hmem
    rw [length_fileBytes (hbounds header hheader), Nat.zero_add]
    exact hi header hheader
  refine ⟨hbounds, ?_, ?_, ?_⟩
  · intro header hmem k hk
    have hcopied := getElem?_of_writeAll hwrites hapart (k := k)
      (List.mem_map_of_mem hmem)
      (by rw [length_fileBytes (hbounds header hmem)]; exact hk)
    rw [Nat.zero_add, fileBytes_getElem? hk] at hcopied
    exact hcopied
  · intro i hi hoff
    show filled.storage[i]? = some 0
    rw [houtside hoff, hmemory i, if_pos hi]
  · intro i hi
    show filled.storage[i]? = emulator.memory.storage[i]?
    have hoff : ∀ header ∈ headers, i < header.destinationStart.toNat ∨
        header.destinationStart.toNat + header.sourceSize.toNat ≤ i := by
      intro header hmem
      have hstop := hstops header hmem
      have hfit := hfits header hmem
      rw [destinationRange_stop] at hstop
      omega
    rw [houtside hoff, hmemory i, if_neg (by omega)]

end Map

section Code
variable {headers : List SegmentHeader} {mapped loaded : Emulator Handler}

/-- The code memory is the concatenation of the segments' file bytes. -/
theorem copySegments_contiguous {first : SegmentHeader} {rest : List SegmentHeader}
    {buffer : List Byte} (hzero : first.destinationStart = 0)
    (hsizes : ∀ header ∈ first :: rest, header.destinationSize = header.sourceSize)
    (hadjoins : ((first :: rest).map destinationRange).IsChain Range.Adjoins)
    (hwrap : ∀ header ∈ first :: rest, (destinationRange header).stop < 2 ^ 64)
    (h : copySegments source 0 (first :: rest)
      (List.replicate (totalSize (first :: rest)) 0) = .ok buffer) :
    buffer = (first :: rest).flatMap (fileBytes source) := by
  obtain ⟨hwrites, hbounds⟩ := copySegments_ok h
  have hstop {header : SegmentHeader} (hmem : header ∈ first :: rest) :
      0 + header.destinationStart.toNat + (fileBytes source header).length =
        (destinationRange header).stop := by
    rw [length_fileBytes (hbounds header hmem), ← hsizes header hmem, Nat.zero_add,
      destinationRange_stop]
  have hcontiguous : Contiguous 0 (copies source 0 (first :: rest)) := by
    have hstart : 0 + first.destinationStart.toNat = 0 := by
      rw [hzero]
      rfl
    have hchain : (copies source 0 (first :: rest)).IsChain fun a b => a.1 + a.2.length = b.1 := by
      unfold copies
      rw [List.isChain_map]
      refine (List.isChain_map _ |>.mp hadjoins).imp_of_mem_imp fun a b ha _ hab => ?_
      rw [hstop ha, hab, destinationRange_start, Nat.zero_add]
    have hfrom : Contiguous (0 + first.destinationStart.toNat) (copies source 0 (first :: rest)) :=
      contiguous_of_isChain hchain
    rw [hstart] at hfrom
    exact hfrom
  obtain ⟨last, hlast⟩ : ∃ last, (first :: rest).getLast? = some last :=
    ⟨_, List.getLast?_eq_some_getLast (List.cons_ne_nil first rest)⟩
  have hlastMem := List.mem_of_getLast? hlast
  have hlast' : (copies source 0 (first :: rest)).getLast? =
      some (0 + last.destinationStart.toNat, fileBytes source last) := by
    unfold copies
    rw [List.getLast?_map, hlast, Option.map_some]
  have hlength := length_of_contiguous hcontiguous hlast'
  rw [hstop hlastMem, ← totalSize_of_getLast? hlast (hwrap last hlastMem), Nat.zero_add] at hlength
  have hbuffer := writeAll_contiguous hwrites hcontiguous
  rw [List.take_zero, List.nil_append, Nat.zero_add, hlength, List.drop_replicate, Nat.sub_self,
    List.replicate_zero, List.append_nil] at hbuffer
  rw [hbuffer]
  unfold copies
  rw [List.flatMap_map]

theorem mapCodeSegments_ok (h : mapCodeSegments native headers source mapped = .ok loaded) :
    ∃ buffer instructions,
      copySegments source 0 headers (List.replicate (totalSize headers) 0) = .ok buffer ∧
      decodeInstructions native buffer = .ok instructions ∧
      loaded = mapped.setInstructions instructions := by
  unfold mapCodeSegments at h
  split at h
  · cases h
  next last hlast =>
  dsimp only at h
  split at h
  · cases h
  obtain ⟨buffer, hcopy, h⟩ := bind_ok h
  split at h
  · next instructions hdecode =>
    obtain rfl := Except.ok.inj h
    refine ⟨buffer, instructions, ?_, hdecode, rfl⟩
    unfold totalSize
    rw [hlast]
    exact hcopy
  · cases h

end Code

end RiscvEmulator.Guarantees
