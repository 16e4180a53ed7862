import RiscvEmulator.Guarantees.ElfFailure
import RiscvEmulator.Library.ExceptRelation
import RiscvEmulator.Library.WriteHistory

/-!
# Loading one file after another

A load takes up no guest memory and leaves the arena as large as it was, so what becomes of
a load does not depend on the loads before it. Each file that gets to be mapped replaces the
bytes of its own data memory, whatever they were, and no others; each file that is loaded
replaces the instructions. After any sequence of loads, successful or not, the emulator holds
at each place what the last file to map it has there.
-/
namespace RiscvEmulator.Guarantees
open Source Spec Library ByteBuffer ExceptList ExceptRelation WriteHistory

section Layout
variable {Handler : Type} {source : List Byte} {headers : List SegmentHeader}
  {emulator mapped : Emulator Handler}

/-- Two arenas with the same storage but for its bytes. -/
structure SameLayout (arena arena' : Arena) : Prop where
  base : arena'.base = arena.base
  length : arena'.storage.length = arena.storage.length
  freeSpace : arena'.freeSpace = arena.freeSpace

/-- An arena laid out like a new one has all its memory free. -/
theorem SameLayout.fresh {arena : Arena} {base capacity : Nat}
    (h : SameLayout (Arena.new base capacity) arena) :
    arena.base = base ∧ arena.raw.length = capacity ∧ arena.getFreeOffset = 0 := by
  have hlength : arena.storage.length = capacity := by
    rw [h.length]
    simp [Arena.new]
  refine ⟨h.base, hlength, ?_⟩
  unfold Arena.getFreeOffset
  rw [hlength, h.freeSpace]
  simp [Arena.new]

theorem sameLayout_copySegments {arena arena' : Arena} {origin : Nat}
    (h : arena.copySegments source origin headers = .ok arena') : SameLayout arena arena' := by
  unfold Arena.copySegments at h
  split at h
  · next storage hcopy =>
    obtain rfl := Except.ok.inj h
    exact ⟨rfl, length_copySegments hcopy, rfl⟩
  · cases h

theorem sameLayout_allocateArray {arena arena' : Arena} {total : BitVec 64} {origin : Nat}
    (h : arena.allocateArray ItemType.byte total = .ok (origin, arena')) :
    SameLayout arena arena' := by
  have hspace := (allocateArray_byte h).2.2.1
  unfold Arena.allocateArray at h
  obtain ⟨⟨start, cursor⟩, hraw, h⟩ := bind_ok h
  obtain ⟨filled, hitems, h⟩ := bind_ok h
  obtain ⟨rfl, rfl⟩ := Prod.mk.inj (Except.ok.inj h)
  obtain ⟨padding, -, -, -, hbase, hstorage, -⟩ := Arena.allocateRaw_ok hraw
  obtain ⟨hbase', -, hfilled⟩ := Arena.withItems_ok hitems
  exact ⟨hbase'.trans hbase, by rw [Arena.length_constructItems hfilled, hstorage], hspace⟩

/-- Mapping the data segments takes up no memory. -/
theorem sameLayout_mapDataSegments
    (h : mapDataSegments headers source emulator = .ok mapped) :
    SameLayout emulator.memory mapped.memory := by
  unfold mapDataSegments at h
  split at h
  · obtain rfl := Except.ok.inj h
    exact ⟨rfl, rfl, rfl⟩
  · obtain ⟨⟨origin, allocated⟩, hallocate, h⟩ := bind_ok h
    obtain ⟨filled, hcopy, h⟩ := bind_ok h
    obtain rfl := Except.ok.inj h
    have hallocated := sameLayout_allocateArray (allocateDataMemory_ok hallocate)
    have hfilled := sameLayout_copySegments hcopy
    exact ⟨hfilled.base.trans hallocated.base, hfilled.length.trans hallocated.length,
      hfilled.freeSpace.trans hallocated.freeSpace⟩

end Layout

/-- Two arenas with the same layout and the same bytes at some places. -/
structure AlikeOn (places : Nat → Prop) (arena arena' : Arena) : Prop where
  base : arena'.base = arena.base
  freeSpace : arena'.freeSpace = arena.freeSpace
  storage : AgreeOn places arena.storage arena'.storage

section Alike
variable {places : Nat → Prop} {arena arena' : Arena} {source buffer buffer' : List Byte}

theorem SameLayout.alikeOn (h : SameLayout arena arena') : AlikeOn (fun _ => False) arena arena' :=
  ⟨h.base, h.freeSpace, h.length, fun _ hnone => hnone.elim⟩

theorem AlikeOn.freeOffset (h : AlikeOn places arena arena') :
    arena'.getFreeOffset = arena.getFreeOffset := by
  unfold Arena.getFreeOffset
  rw [h.storage.length, h.freeSpace]

theorem allocateRaw_alike (h : AlikeOn places arena arena') (size alignment : Nat) :
    Related (fun result result' => result'.1 = result.1 ∧ AlikeOn places result.2 result'.2)
      (arena.allocateRaw size alignment) (arena'.allocateRaw size alignment) := by
  have hoffset := h.freeOffset
  obtain ⟨hbase, hspace, hstorage⟩ := h
  unfold Arena.allocateRaw
  split
  · next hfail =>
    rw [← hbase, ← hoffset, ← hspace] at hfail
    split
    · exact .error _
    · next halign =>
      rw [hfail] at halign
      cases halign
  · next ptr freeSpace hfound =>
    rw [← hbase, ← hoffset, ← hspace] at hfound
    by_cases hnull : ptr = 0
    · rw [if_pos hnull]
      split
      · exact .error _
      · next ptr' freeSpace' halign =>
        rw [hfound] at halign
        obtain ⟨rfl, rfl⟩ := Prod.mk.inj (Option.some.inj halign)
        rw [if_pos hnull]
        exact .error _
    · rw [if_neg hnull]
      split
      · next halign =>
        rw [hfound] at halign
        cases halign
      · next ptr' freeSpace' halign =>
        rw [hfound] at halign
        obtain ⟨rfl, rfl⟩ := Prod.mk.inj (Option.some.inj halign)
        rw [if_neg hnull]
        exact .ok ⟨congrArg (ptr - ·) hbase, hbase, rfl, hstorage⟩

theorem constructItems_alike (type : ItemType) (offset itemCount : Nat)
    (h : AgreeOn places buffer buffer') :
    Related (AgreeOn fun i => places i ∨ (offset ≤ i ∧ i < offset + itemCount * type.size))
      (Arena.constructItems type buffer offset itemCount)
      (Arena.constructItems type buffer' offset itemCount) := by
  induction itemCount with
  | zero => exact .ok (h.mono fun i hi => hi.resolve_right (by omega))
  | succ itemCount ih =>
    unfold Arena.constructItems
    refine ih.bind fun storage storage' hagree => ?_
    rcases hagree.writeAt (offset + itemCount * type.size) type.initial with
      ⟨hwrite, hwrite'⟩ | ⟨written, written', hwrite, hwrite', hwritten⟩
    · rw [hwrite, hwrite']
      exact .error _
    · rw [hwrite, hwrite']
      refine .ok (hwritten.mono fun i hi => ?_)
      have hsize : type.initial.length = type.size := rfl
      rw [Nat.succ_mul] at hi
      rcases hi with hplace | hslice
      · exact .inl (.inl hplace)
      · by_cases hlast : offset + itemCount * type.size ≤ i
        · exact .inr (by omega)
        · exact .inl (.inr (by omega))

theorem withItems_alike (type : ItemType) (offset itemCount : Nat)
    (h : AlikeOn places arena arena') :
    Related (AlikeOn fun i => places i ∨ (offset ≤ i ∧ i < offset + itemCount * type.size))
      (arena.withItems type offset itemCount) (arena'.withItems type offset itemCount) := by
  have hitems := constructItems_alike type offset itemCount h.storage
  unfold Arena.withItems
  split
  · next storage hstorage =>
    obtain ⟨storage', hstorage', hagree⟩ := hitems.exists_ok hstorage
    split
    · next other hother =>
      obtain rfl := Except.ok.inj (hstorage'.symm.trans hother)
      exact .ok ⟨h.base, h.freeSpace, hagree⟩
    · next e he =>
      rw [hstorage'] at he
      cases he
  · next e he =>
    have he' := hitems.of_error he
    split
    · next other hother =>
      rw [he'] at hother
      cases hother
    · next e' hother =>
      obtain rfl := Except.error.inj (he'.symm.trans hother)
      exact .error _

theorem allocateArray_alike (type : ItemType) (itemCount : BitVec 64)
    (h : AlikeOn places arena arena') :
    Related (fun result result' => result'.1 = result.1 ∧
        AlikeOn (fun i => places i ∨
          (result.1 ≤ i ∧ i < result.1 + itemCount.toNat * type.size)) result.2 result'.2)
      (arena.allocateArray type itemCount) (arena'.allocateArray type itemCount) := by
  unfold Arena.allocateArray
  refine (allocateRaw_alike h _ _).bind ?_
  rintro ⟨offset, cursor⟩ ⟨offset', cursor'⟩ ⟨rfl, hcursor⟩
  refine (withItems_alike type offset' itemCount.toNat hcursor).bind ?_
  intro filled filled' hfilled
  exact .ok ⟨rfl, hfilled⟩

theorem copySegments_alike (origin : Nat) (headers : List SegmentHeader)
    (h : AgreeOn places buffer buffer') :
    Related (AgreeOn fun i => places i ∨ ∃ header ∈ headers,
        origin + header.destinationStart.toNat ≤ i ∧
          i < origin + header.destinationStart.toNat + header.sourceSize.toNat)
      (copySegments source origin headers buffer) (copySegments source origin headers buffer') := by
  induction headers generalizing places buffer buffer' with
  | nil => exact .ok (h.mono fun i hi => hi.resolve_right (by simp))
  | cons header headers ih =>
    unfold copySegments
    cases hread : readAt source header.sourceStart.toNat header.sourceSize.toNat with
    | none => exact .error _
    | some bytes =>
      have hlength := (readAt_eq_some hread).2.1
      dsimp only
      rcases h.writeAt (origin + header.destinationStart.toNat) bytes with
        ⟨hwrite, hwrite'⟩ | ⟨written, written', hwrite, hwrite', hwritten⟩
      · rw [hwrite, hwrite']
        exact .error _
      · rw [hwrite, hwrite']
        refine (ih hwritten).mono fun copied copied' hcopied => hcopied.mono fun i hi => ?_
        rw [hlength]
        rcases hi with hplace | ⟨other, hmem, hslice⟩
        · exact .inl (.inl hplace)
        · rcases List.mem_cons.mp hmem with rfl | hmem
          · exact .inl (.inr hslice)
          · exact .inr ⟨other, hmem, hslice⟩

theorem arena_copySegments_alike (origin : Nat) (headers : List SegmentHeader)
    (h : AlikeOn places arena arena') :
    Related (AlikeOn fun i => places i ∨ ∃ header ∈ headers,
        origin + header.destinationStart.toNat ≤ i ∧
          i < origin + header.destinationStart.toNat + header.sourceSize.toNat)
      (arena.copySegments source origin headers) (arena'.copySegments source origin headers) := by
  have hcopies := @copySegments_alike _ source _ _ origin headers h.storage
  unfold Arena.copySegments
  split
  · next storage hstorage =>
    obtain ⟨storage', hstorage', hagree⟩ := hcopies.exists_ok hstorage
    split
    · next other hother =>
      obtain rfl := Except.ok.inj (hstorage'.symm.trans hother)
      exact .ok ⟨h.base, h.freeSpace, hagree⟩
    · next e he =>
      rw [hstorage'] at he
      cases he
  · next e he =>
    have he' := hcopies.of_error he
    split
    · next other hother =>
      rw [he'] at hother
      cases hother
    · next e' hother =>
      obtain rfl := Except.error.inj (he'.symm.trans hother)
      exact .error _

end Alike

section Map
variable {Handler : Type} {source : List Byte} {headers : List SegmentHeader}
  {emulator emulator' : Emulator Handler} {std : StdSort SegmentHeader.less} {native : Endian}

theorem allocateDataMemory_alike {places : Nat → Prop} {arena arena' : Arena}
    (h : AlikeOn places arena arena') (total : BitVec 64) :
    Related (fun result result' => result.1 = arena.getFreeOffset ∧ result'.1 = result.1 ∧
        AlikeOn (fun i => places i ∨ (result.1 ≤ i ∧ i < result.1 + total.toNat))
          result.2 result'.2)
      (allocateDataMemory arena total) (allocateDataMemory arena' total) := by
  have hallocations := (allocateArray_alike ItemType.byte total h).of_eq
  unfold allocateDataMemory
  generalize harray : arena.allocateArray ItemType.byte total = result at hallocations ⊢
  generalize arena'.allocateArray ItemType.byte total = result' at hallocations ⊢
  cases hallocations with
  | ok hresults =>
    obtain ⟨hresult, -, hoffset, halike⟩ := hresults
    rw [hresult] at harray
    refine .ok ⟨(allocateArray_byte harray).1, hoffset, ?_⟩
    have hsize : ItemType.byte.size = 1 := rfl
    rwa [hsize, Nat.mul_one] at halike
  | error e =>
    split
    · exact .error _
    · exact .error _

/-- Both emulators have the same data memory after the mapping, or neither is mapped. -/
theorem mapDataSegments_alike (headers : List SegmentHeader)
    (h : SameLayout emulator.memory emulator'.memory) :
    Related (fun mapped mapped' =>
        AlikeOn (InDataMemory emulator.memory.getFreeOffset headers) mapped.memory mapped'.memory)
      (mapDataSegments headers source emulator) (mapDataSegments headers source emulator') := by
  unfold mapDataSegments
  cases hlast : headers.getLast? with
  | none =>
    obtain rfl := List.getLast?_eq_none_iff.mp hlast
    refine .ok ⟨h.base, h.freeSpace, h.length, fun i hi => ?_⟩
    rcases hi with ⟨hlow, hhigh⟩ | ⟨header, hmem, -⟩
    · exact absurd hhigh (Nat.not_lt.mpr hlow)
    · cases hmem
  | some last =>
    dsimp only
    refine (allocateDataMemory_alike h.alikeOn last.destinationEnd).bind ?_
    rintro ⟨origin, allocated⟩ ⟨origin', allocated'⟩ ⟨rfl, rfl, hallocated⟩
    refine (arena_copySegments_alike _ headers hallocated).bind fun filled filled' hfilled => ?_
    refine .ok ⟨hfilled.base, hfilled.freeSpace, hfilled.storage.mono fun i hi => ?_⟩
    unfold InDataMemory at hi
    rw [totalSize_eq hlast] at hi
    rcases hi with hblock | hcopy
    · exact .inl (.inr hblock)
    · exact .inr hcopy

/-- The outcome of mapping the code does not depend on the emulator. -/
theorem mapCodeSegments_alike (native : Endian) (headers : List SegmentHeader)
    (emulator emulator' : Emulator Handler) :
    Related (fun loaded loaded' => ∃ instructions, loaded = emulator.setInstructions instructions ∧
        loaded' = emulator'.setInstructions instructions)
      (mapCodeSegments native headers source emulator)
      (mapCodeSegments native headers source emulator') := by
  unfold mapCodeSegments
  cases headers.getLast? with
  | none => exact .error _
  | some last =>
    dsimp only
    split
    · exact .error _
    · cases copySegments source 0 headers (List.replicate last.destinationEnd.toNat 0) with
      | error e => exact .error e
      | ok buffer =>
        rw [ok_bind, ok_bind]
        cases decodeInstructions native buffer with
        | ok instructions => exact .ok ⟨instructions, rfl, rfl⟩
        | error object => exact .error _

/-- Whatever becomes of a load, the layout of the memory stays. -/
theorem sameLayout_afterLoad (std : StdSort SegmentHeader.less) (native : Endian)
    (source : List Byte) (emulator : Emulator Handler) :
    SameLayout emulator.memory (loadElf std native source emulator).2.memory := by
  have hsame : SameLayout emulator.memory emulator.memory := ⟨rfl, rfl, rfl⟩
  unfold loadElf
  split
  · exact hsame
  split
  · exact hsame
  next mapped hdata =>
  split
  · exact sameLayout_mapDataSegments hdata
  · next loaded hcode =>
    obtain ⟨buffer, instructions, -, -, rfl⟩ := mapCodeSegments_ok hcode
    have hmapped := sameLayout_mapDataSegments hdata
    exact ⟨hmapped.base, hmapped.length, hmapped.freeSpace⟩

end Map

instance (origin : Nat) (headers : List SegmentHeader) (i : Nat) :
    Decidable (InDataMemory origin headers i) :=
  inferInstanceAs (Decidable ((origin ≤ i ∧ i < origin + totalSize headers) ∨
    ∃ header ∈ headers, origin + header.destinationStart.toNat ≤ i ∧
      i < origin + header.destinationStart.toNat + header.sourceSize.toNat))

section Step
variable {Handler : Type}

/-- The byte that a load into fresh memory gives place `i`, if it maps data there. -/
def mappedByte (std : StdSort SegmentHeader.less) (native : Endian) (fresh : Emulator Handler)
    (i : Nat) (source : List Byte) : Option Byte :=
  match readHeaders std native source with
  | .error _ => none
  | .ok (dataHeaders, _) =>
    match mapDataSegments dataHeaders source fresh with
    | .error _ => none
    | .ok mapped =>
      if InDataMemory fresh.memory.getFreeOffset dataHeaders i then mapped.memory.raw[i]? else none

/-- The instructions that a load gives the emulator, if it returns. -/
def loadedInstructions (std : StdSort SegmentHeader.less) (native : Endian)
    (fresh : Emulator Handler) (source : List Byte) : Option (List Instruction) :=
  match loadElf std native source fresh with
  | (.ok (), loaded) => some loaded.instructions
  | _ => none

def byteAt (emulator : Emulator Handler) (i : Nat) : Byte := (emulator.memory.raw[i]?).getD 0

variable {source : List Byte} {data : List SegmentHeader}
  {fresh emulator mapped mapped' : Emulator Handler}

/-- A mapping gives its data memory the bytes it gives fresh memory, and keeps the rest. -/
theorem byteAt_mapped (hlayout : SameLayout fresh.memory emulator.memory)
    (hmapped' : mapDataSegments data source emulator = .ok mapped')
    (halike : AlikeOn (InDataMemory fresh.memory.getFreeOffset data) mapped.memory mapped'.memory)
    (i : Nat) :
    byteAt mapped' i = (if InDataMemory fresh.memory.getFreeOffset data i then
      mapped.memory.raw[i]? else none).getD (byteAt emulator i) := by
  unfold byteAt
  split
  · next hinside =>
    have hsame : mapped'.memory.raw[i]? = mapped.memory.raw[i]? := halike.storage.items i hinside
    rw [hsame]
    cases hbyte : mapped.memory.raw[i]? with
    | some byte => rfl
    | none =>
      have hlength : mapped'.memory.storage.length = emulator.memory.storage.length :=
        (sameLayout_mapDataSegments hmapped').length
      rw [hbyte, List.getElem?_eq_none_iff] at hsame
      have hpast : emulator.memory.raw[i]? = none :=
        List.getElem?_eq_none (hlength ▸ hsame)
      rw [hpast]
      rfl
  · next houtside =>
    rw [← (AlikeOn.freeOffset hlayout.alikeOn)] at houtside
    have hkept := (mapDataSegments_frame hmapped').2.2 i houtside
    exact congrArg (Option.getD · 0) hkept

/-- What becomes of a load is what becomes of it in fresh memory, and it replaces the
instructions and the bytes by those it gives the fresh emulator. -/
theorem loadElf_alike (std : StdSort SegmentHeader.less) (native : Endian) (source : List Byte)
    (hlayout : SameLayout fresh.memory emulator.memory) :
    (loadElf std native source emulator).1 = (loadElf std native source fresh).1 ∧
      (loadElf std native source emulator).2.instructions =
        (loadedInstructions std native fresh source).getD emulator.instructions ∧
      ∀ i, byteAt (loadElf std native source emulator).2 i =
        (mappedByte std native fresh i source).getD (byteAt emulator i) := by
  unfold loadedInstructions mappedByte loadElf
  cases readHeaders std native source with
  | error e => exact ⟨rfl, rfl, fun _ => rfl⟩
  | ok headers =>
    obtain ⟨data, code⟩ := headers
    have hmappings := @mapDataSegments_alike _ source _ _ data hlayout
    dsimp only
    cases hfresh : mapDataSegments data source fresh with
    | error e =>
      rw [hmappings.of_error hfresh]
      exact ⟨rfl, rfl, fun _ => rfl⟩
    | ok mapped =>
      obtain ⟨mapped', hmapped', halike⟩ := hmappings.exists_ok hfresh
      have hbytes := byteAt_mapped hlayout hmapped' halike
      have hkept := (mapDataSegments_frame hmapped').2.1
      have hcodes := @mapCodeSegments_alike _ source native code mapped mapped'
      rw [hmapped']
      dsimp only
      cases hcode : mapCodeSegments native code source mapped with
      | error e =>
        rw [hcodes.of_error hcode]
        exact ⟨rfl, hkept, hbytes⟩
      | ok loaded =>
        obtain ⟨loaded', hcode', instructions, rfl, rfl⟩ := hcodes.exists_ok hcode
        rw [hcode']
        exact ⟨rfl, rfl, hbytes⟩

end Step

section Sequence
variable {Handler : Type}

/-- A load whose exception, if it throws one, is caught. -/
def loadNext (std : StdSort SegmentHeader.less) (native : Endian) (emulator : Emulator Handler)
    (source : List Byte) : Except Abort (Emulator Handler) :=
  match loadElf std native source emulator with
  | (.error .undefinedBehaviour, _) => .error .undefinedBehaviour
  | (_, after) => .ok after

def loadEach (std : StdSort SegmentHeader.less) (native : Endian) (emulator : Emulator Handler)
    (files : List (List Byte)) : Except Abort (Emulator Handler) :=
  files.foldlM (loadNext std native) emulator

variable {std : StdSort SegmentHeader.less} {native : Endian} {source : List Byte}
  {fresh emulator after : Emulator Handler}

theorem loadNext_ok (h : loadNext std native emulator source = .ok after) :
    after = (loadElf std native source emulator).2 := by
  unfold loadNext at h
  split at h
  · cases h
  · next hload =>
    rw [hload]
    exact (Except.ok.inj h).symm

theorem SameLayout.trans {first second third : Arena} (h : SameLayout first second)
    (h' : SameLayout second third) : SameLayout first third :=
  ⟨h'.base.trans h.base, h'.length.trans h.length, h'.freeSpace.trans h.freeSpace⟩

/-- Any reading of the emulator that a load replaces by what it gives has, after a sequence
of loads, what was given last. -/
theorem loadEach_reading {ν : Type} (reading : Emulator Handler → ν)
    (given : List Byte → Option ν)
    (hstep : ∀ emulator source, SameLayout fresh.memory emulator.memory →
      reading (loadElf std native source emulator).2 = (given source).getD (reading emulator))
    {files : List (List Byte)} (h : loadEach std native fresh files = .ok after) :
    SameLayout fresh.memory after.memory ∧
      reading after = (lastGiven given files).getD (reading fresh) := by
  refine @foldlM_eq_lastGiven ν _ _ _ (loadNext std native)
    (fun emulator => SameLayout fresh.memory emulator.memory) reading given ?_ ?_ _ _ _
    ⟨rfl, rfl, rfl⟩ h
  · intro emulator source emulator' hlayout hload
    rw [loadNext_ok hload]
    exact hlayout.trans (sameLayout_afterLoad std native source emulator)
  · intro emulator source emulator' hlayout hload
    rw [loadNext_ok hload]
    exact hstep emulator source hlayout

end Sequence

/-- After any sequence of loads into fresh memory, the emulator has the instructions of the
last file that was loaded and, at each place, the byte of the last file that mapped data
there; and what becomes of the next load is what becomes of it in fresh memory. -/
theorem loads_in_sequence {Handler : Type} (std : StdSort SegmentHeader.less) (native : Endian)
    (base capacity : Nat) (files : List (List Byte)) (final : Emulator Handler)
    (h : loadEach std native (Emulator.new base capacity) files = .ok final) :
    SameLayout (Arena.new base capacity) final.memory ∧
      final.instructions =
        (lastGiven (loadedInstructions std native (Emulator.new base capacity : Emulator Handler))
          files).getD [] ∧
      (∀ i, i < capacity → final.memory.raw[i]? =
        some ((lastGiven (mappedByte std native (Emulator.new base capacity : Emulator Handler) i)
          files).getD 0)) ∧
      ∀ source, (loadElf std native source final).1 =
        (loadElf std native source (Emulator.new base capacity : Emulator Handler)).1 := by
  obtain ⟨hlayout, hinstructions⟩ := loadEach_reading Emulator.instructions _
    (fun emulator source hlayout => (loadElf_alike std native source hlayout).2.1) h
  refine ⟨hlayout, hinstructions, fun i hi => ?_, fun source =>
    (loadElf_alike std native source hlayout).1⟩
  obtain ⟨-, hbyte⟩ := loadEach_reading (fun emulator => byteAt emulator i) _
    (fun emulator source hlayout => (loadElf_alike std native source hlayout).2.2 i) h
  have hlength : i < final.memory.raw.length := by
    rw [hlayout.fresh.2.1]
    exact hi
  have hzero : byteAt (Emulator.new base capacity : Emulator Handler) i = 0 := by
    simp [byteAt, Emulator.new, Arena.new, Arena.raw, List.getElem?_replicate_of_lt hi]
  rw [hzero] at hbyte
  rw [← hbyte, byteAt, List.getElem?_eq_getElem hlength]
  rfl

/-- A file with data that is loaded, and one whose data is mapped before its code is rejected. -/
def twoFiles : List (List Byte) := [paddedFile, compressedFile]

theorem loadEach_twoFiles :
    ∃ final, loadEach insertionSort .little smallEmulator twoFiles = .ok final := by
  have hdefined : (loadEach insertionSort .little smallEmulator twoFiles).isOk = true := by
    decide +kernel
  cases h : loadEach insertionSort .little smallEmulator twoFiles with
  | ok final => exact ⟨final, rfl⟩
  | error e =>
    rw [h] at hdefined
    cases hdefined

theorem loads_in_sequence_twoFiles : ∃ final : Emulator Unit,
    SameLayout (Arena.new 4096 8) final.memory ∧
      final.instructions =
        (lastGiven (loadedInstructions insertionSort .little smallEmulator) twoFiles).getD [] ∧
      (∀ i, i < 8 → final.memory.raw[i]? =
        some ((lastGiven (mappedByte insertionSort .little smallEmulator i) twoFiles).getD 0)) ∧
      ∀ source, (loadElf insertionSort .little source final).1 =
        (loadElf insertionSort .little source smallEmulator).1 := by
  obtain ⟨final, hfinal⟩ := loadEach_twoFiles
  exact ⟨final, loads_in_sequence insertionSort .little 4096 8 twoFiles final hfinal⟩

end RiscvEmulator.Guarantees
