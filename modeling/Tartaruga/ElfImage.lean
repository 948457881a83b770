import Mathlib.Data.List.GetD
import Mathlib.Data.List.Pairwise
import Tartaruga.ElfSource
import Tartaruga.MemoryLines

namespace Tartaruga

/-!
# The image of an executable in the memory

What a well-formed 32-bit executable holds, and what the loader makes of it.
Sections whose size is a multiple of four are copied exactly; of any other one
the loop copies a word too much, and the rest that is handled after the loop
goes to the word behind.
-/

open LittleEndian (Byte)

namespace Elf

section File

variable (bytes : List Byte)

/-- The position of the section table. -/
def tablePosition : Nat :=
  LittleEndian.number (vectorByte bytes) elf32.eShoff 4

/-- The number of sections. -/
def sectionCount : Nat :=
  LittleEndian.number (vectorByte bytes) elf32.eShnum 2

/-- The number of the section that holds the names. -/
def nameSection : Nat :=
  LittleEndian.number (vectorByte bytes) elf32.eShstrndx 2

/-- The header of a section. -/
def sectionAt (number : Nat) : Shdr :=
  shdrAt elf32 (vectorByte bytes)
    (tablePosition bytes + number * elf32.shdrSize)

/-- The section headers. -/
def sections : List Shdr :=
  (List.range (sectionCount bytes)).map (sectionAt bytes)

/-- The bytes of a section in the file. -/
def contents (sh : Shdr) : List Byte :=
  (bytes.drop sh.shOffset).take sh.shSize

/-- The name of a section, if its string is proper. -/
def sectionName (sh : Shdr) : Option (List Byte) :=
  cString (contents bytes (sectionAt bytes (nameSection bytes))) sh.shName

/-- The section has contents in the file. -/
def hasContents (sh : Shdr) : Bool :=
  !(sh.shType == shtNobits) && !(sh.shSize == 0)

/-- The section belongs to the image. -/
def isLoaded (sh : Shdr) : Bool :=
  hasContents sh &&
    (sectionName bytes sh == some textName ||
      sectionName bytes sh == some dataName)

/-- The sections of the image. -/
def loadedSections : List Shdr :=
  (sections bytes).filter (isLoaded bytes)

/-- Two sections have no byte in common. -/
def Apart (first second : Shdr) : Prop :=
  first.shAddr + first.shSize ≤ second.shAddr ∨
    second.shAddr + second.shSize ≤ first.shAddr

/-- A well-formed executable for this machine: 32 bits, little-endian, every
header, name and content inside the file, and the sections of the image at
word addresses, inside the memory and apart. -/
structure WellFormed : Prop where
  magic : bytes.take 4 = Elf.magic
  class32 : bytes[4]? = some 1
  littleEndian : bytes[5]? = some 1
  header : elf32.ehdrSize ≤ bytes.length
  entrySize : LittleEndian.number (vectorByte bytes) 46 2 = elf32.shdrSize
  table :
    tablePosition bytes + sectionCount bytes * elf32.shdrSize ≤ bytes.length
  nameSection_lt : nameSection bytes < sectionCount bytes
  names :
    (sectionAt bytes (nameSection bytes)).shOffset +
      (sectionAt bytes (nameSection bytes)).shSize ≤ bytes.length
  named :
    ∀ sh ∈ sections bytes, hasContents sh = true →
      (sectionName bytes sh).isSome = true
  inside :
    ∀ sh ∈ sections bytes, hasContents sh = true →
      sh.shOffset + sh.shSize ≤ bytes.length
  aligned : ∀ sh ∈ loadedSections bytes, sh.shAddr % 4 = 0
  fits : ∀ sh ∈ loadedSections bytes, sh.shAddr + sh.shSize ≤ 2 ^ 30
  apart : (loadedSections bytes).Pairwise Apart

end File

/-- A byte of the memory. -/
def memoryByte (memory : Memory) (addr : Nat) : Byte :=
  LittleEndian.byteOf (memory.readMem (BitVec.ofNat 32 (addr / 4 * 4)))
    (addr % 4)

/-- The transfers leave exactly the image of the file in the memory. -/
structure ImageExact
    (bytes : List Byte)
    (memory : Memory)
    (transfers : List Transfer) :
    Prop where
  image :
    ∀ sh ∈ loadedSections bytes, ∀ place, place < sh.shSize →
      memoryByte (afterTransfers memory transfers) (sh.shAddr + place) =
        vectorByte bytes (sh.shOffset + place)
  reads :
    ∀ transfer ∈ transfers, ∀ place, place < transfer.count →
      transfer.position + place < transfer.shdr.shSize
  writes :
    ∀ transfer ∈ transfers,
      ∃ sh ∈ loadedSections bytes, ∃ place, place < sh.shSize ∧
        (sh.shAddr + place) / 4 = transfer.addr.toNat / 4

/-- What the loader has to do with a file, or with a path that cannot be
opened. -/
structure LoadsExactly
    (beyond : Shdr → Nat → Byte)
    (file : Option (List Byte))
    (memory : Memory) :
    Prop where
  opened :
    ∀ transfers, loadElf beyond file = some (true, transfers) →
      ∃ bytes, file = some bytes ∧ bytes.take 4 = magic
  image :
    ∀ bytes transfers, file = some bytes → WellFormed bytes →
      loadElf beyond file = some (true, transfers) →
        ImageExact bytes memory transfers

section Reading

variable {bytes : List Byte} {position count offset width : Nat}

/-- A byte of a part of the file. -/
theorem vectorByte_part {place : Nat} (inside : place < count) :
    vectorByte ((bytes.drop position).take count) place =
      vectorByte bytes (position + place) := by
  simp [vectorByte, List.getD_eq_getElem?_getD, List.getElem?_drop, inside]

/-- A number in a part of the file. -/
theorem number_part (inside : offset + width ≤ count) :
    LittleEndian.number
        (vectorByte ((bytes.drop position).take count)) offset width =
      LittleEndian.number (vectorByte bytes) (position + offset) width := by
  apply LittleEndian.number_congr
  intro place before
  rw [vectorByte_part (by omega), Nat.add_assoc]

/-- A stream that has not failed on a file. -/
structure Good (bytes : List Byte) (elf : Ifstream) : Prop where
  bytes : elf.bytes = bytes
  failed : elf.failed = false

/-- A read inside the file gets its part of the file. -/
theorem Good.read
    {elf : Ifstream}
    (good : Good bytes elf)
    (inside : elf.position + count ≤ bytes.length) :
    (elf.read count).1 = (bytes.drop elf.position).take count ∧
      Good bytes (elf.read count).2 := by
  have enough :
      ((bytes.drop elf.position).take count).length = count := by
    rw [List.length_take, List.length_drop]
    omega
  simp only [Ifstream.read, good.failed, good.bytes, Bool.false_eq_true,
    ↓reduceIte, enough, true_and]
  exact ⟨rfl, decide_eq_false (Nat.lt_irrefl count)⟩

/-- A stream moves without failing. -/
theorem Good.seekg
    {elf : Ifstream}
    (good : Good bytes elf) :
    Good bytes (elf.seekg position) := by
  simp only [Ifstream.seekg, good.failed, Bool.false_eq_true, ↓reduceIte]
  exact ⟨good.bytes, rfl⟩

/-- So does a read into a vector after a move. -/
theorem Good.readVector
    {elf : Ifstream}
    (good : Good bytes elf)
    (inside : position + count ≤ bytes.length) :
    ((elf.seekg position).readVector count).1 =
        (bytes.drop position).take count ∧
      Good bytes ((elf.seekg position).readVector count).2 := by
  have moved : (elf.seekg position).position = position := by
    simp [Ifstream.seekg, good.failed]
  obtain ⟨got, after⟩ := good.seekg.read (by rw [moved]; exact inside)
  rw [moved] at got
  have enough :
      ((bytes.drop position).take count).length = count := by
    rw [List.length_take, List.length_drop]
    omega
  refine ⟨?_, after⟩
  simp only [Ifstream.readVector, got, enough, Nat.sub_self,
    List.replicate_zero, List.append_nil]

/-- The headers in the table are those of the file. -/
theorem shdrAt_table {number total : Nat} (inside : number < total) :
    shdrAt elf32
        (vectorByte
          ((bytes.drop position).take (total * elf32.shdrSize)))
        (number * elf32.shdrSize) =
      shdrAt elf32 (vectorByte bytes)
        (position + number * elf32.shdrSize) := by
  have room :
      number * elf32.shdrSize + 40 ≤ total * elf32.shdrSize :=
    (Nat.succ_mul number 40).symm.le.trans (Nat.mul_le_mul_right 40 inside)
  have field {place : Nat} (early : place ≤ 36) :
      LittleEndian.number
          (vectorByte
            ((bytes.drop position).take (total * elf32.shdrSize)))
          (number * elf32.shdrSize + place) 4 =
        LittleEndian.number (vectorByte bytes)
          (position + number * elf32.shdrSize + place) 4 := by
    rw [number_part (by omega), Nat.add_assoc]
  simp only [shdrAt, Shdr.mk.injEq]
  exact
    ⟨field (Nat.zero_le 36), field (by decide), field (by decide),
      field (by decide), field (by decide)⟩

/-- The comparison looks at as many bytes as are expected. -/
theorem hasMagic_eq_true {expected ident : List Byte} :
    hasMagic expected ident = some true ↔
      ident.take expected.length = expected := by
  induction expected generalizing ident with
  | nil => simp [hasMagic]
  | cons first rest inductionHypothesis =>
      cases ident with
      | nil => simp [hasMagic]
      | cons byte later =>
          by_cases same : byte = first
          · simp [hasMagic, same, inductionHypothesis]
          · simp [hasMagic, same]

end Reading

section Loading

variable {beyond : Shdr → Nat → Byte} {bytes : List Byte}

/-- The buffer of a section, and what stands in memory behind it. -/
def bufferOf
    (beyond : Shdr → Nat → Byte)
    (bytes : List Byte)
    (sh : Shdr)
    (position : Nat) :
    Byte :=
  (contents bytes sh).getD position (beyond sh position)

/-- The transfers for the image of a file. -/
def imageTransfers
    (beyond : Shdr → Nat → Byte)
    (bytes : List Byte)
    (headers : List Shdr) :
    List Transfer :=
  (headers.filter (isLoaded bytes)).flatMap fun sh =>
    copySection sh (bufferOf beyond bytes sh)

/-- The loop over the headers makes the transfers of the image. -/
theorem loadSections_good
    {headers : List Shdr}
    (named :
      ∀ sh ∈ headers, hasContents sh = true →
        (sectionName bytes sh).isSome = true)
    (inside :
      ∀ sh ∈ headers, hasContents sh = true →
        sh.shOffset + sh.shSize ≤ bytes.length)
    {elf : Ifstream}
    (good : Good bytes elf) :
    loadSections beyond
        (contents bytes (sectionAt bytes (nameSection bytes))) headers elf =
      some (imageTransfers beyond bytes headers) := by
  induction headers generalizing elf with
  | nil => rfl
  | cons sh rest inductionHypothesis =>
      have laterNamed :=
        fun other member => named other (List.mem_cons_of_mem sh member)
      have laterInside :=
        fun other member => inside other (List.mem_cons_of_mem sh member)
      have there {elf : Ifstream} (good : Good bytes elf) :=
        inductionHypothesis laterNamed laterInside good
      by_cases skipped : sh.shType = shtNobits ∨ sh.shSize = 0
      · have notLoaded : isLoaded bytes sh = false := by
          rcases skipped with nobits | empty
          · simp [isLoaded, hasContents, nobits]
          · simp [isLoaded, hasContents, empty]
        rw [loadSections, if_pos skipped, there good, imageTransfers,
          imageTransfers, List.filter_cons_of_neg (by simp [notLoaded])]
      · have full : hasContents sh = true := by
          simpa [hasContents, not_or] using skipped
        have proper := named sh List.mem_cons_self full
        obtain ⟨name, nameIs⟩ := Option.isSome_iff_exists.mp proper
        obtain ⟨got, after⟩ :=
          good.readVector (inside sh List.mem_cons_self full)
        have nameRead :
            cString (contents bytes (sectionAt bytes (nameSection bytes)))
              sh.shName = some name := nameIs
        simp only [loadSections, if_neg skipped, nameRead, got, there after,
          Option.map_some, Option.some.injEq]
        by_cases copied : name = textName ∨ name = dataName
        · have loaded : isLoaded bytes sh = true := by
            simpa [isLoaded, full, nameIs] using copied
          rw [if_pos copied, imageTransfers, imageTransfers,
            List.filter_cons_of_pos loaded, List.flatMap_cons]
          rfl
        · have notLoaded : isLoaded bytes sh = false := by
            simpa [isLoaded, full, nameIs] using copied
          rw [if_neg copied, imageTransfers, imageTransfers,
            List.filter_cons_of_neg (by simp [notLoaded]), List.nil_append]

/-- The header and the tables are read as they stand in the file. -/
theorem extractSections_wellFormed
    (wellFormed : WellFormed bytes)
    {elf : Ifstream}
    (good : Good bytes elf)
    (start : elf.position = 0) :
    extractSections elf32 beyond elf =
      some (imageTransfers beyond bytes (sections bytes)) := by
  have early : elf.position + elf32.ehdrSize ≤ bytes.length := by
    rw [start, Nat.zero_add]
    exact wellFormed.header
  obtain ⟨gotHeader, afterHeader⟩ := good.read early
  have field {place width : Nat} (inHeader : place + width ≤ elf32.ehdrSize) :
      LittleEndian.number (vectorByte (elf.read elf32.ehdrSize).1)
          place width =
        LittleEndian.number (vectorByte bytes) place width := by
    rw [gotHeader, start, number_part inHeader, Nat.zero_add]
  have shoff :
      LittleEndian.number (vectorByte (elf.read elf32.ehdrSize).1)
        elf32.eShoff elf32.word = tablePosition bytes := field (by decide)
  have shnum :
      LittleEndian.number (vectorByte (elf.read elf32.ehdrSize).1)
        elf32.eShnum 2 = sectionCount bytes := field (by decide)
  have shstrndx :
      LittleEndian.number (vectorByte (elf.read elf32.ehdrSize).1)
        elf32.eShstrndx 2 = nameSection bytes := field (by decide)
  obtain ⟨gotTable, afterTable⟩ := afterHeader.readVector wellFormed.table
  have headers :
      ((List.range (sectionCount bytes)).map fun number =>
        shdrAt elf32
          (vectorByte
            ((bytes.drop (tablePosition bytes)).take
              (sectionCount bytes * elf32.shdrSize)))
          (number * elf32.shdrSize)) = sections bytes :=
    List.map_congr_left fun number member =>
      shdrAt_table (List.mem_range.mp member)
  have names :
      (sections bytes)[nameSection bytes]? =
        some (sectionAt bytes (nameSection bytes)) := by
    rw [sections, List.getElem?_map,
      List.getElem?_range wellFormed.nameSection_lt, Option.map_some]
  obtain ⟨gotNames, afterNames⟩ := afterTable.readVector wellFormed.names
  simp only [extractSections, afterHeader.failed, Bool.false_eq_true,
    ↓reduceIte, shoff, shnum, shstrndx, gotTable, headers, names, gotNames]
  exact loadSections_good wellFormed.named wellFormed.inside afterNames

/-- The loader makes the transfers of the image. -/
theorem loadElf_wellFormed (wellFormed : WellFormed bytes) :
    loadElf beyond (some bytes) =
      some (true, imageTransfers beyond bytes (sections bytes)) := by
  have opened : Good bytes (Ifstream.ofBytes bytes) := ⟨rfl, rfl⟩
  have early :
      (Ifstream.ofBytes bytes).position + 16 ≤ bytes.length :=
    le_trans (show 0 + 16 ≤ 52 by decide) wellFormed.header
  obtain ⟨gotIdent, afterIdent⟩ := opened.read early
  have isElf : hasMagic magic (bytes.take 16) = some true := by
    rw [hasMagic_eq_true, List.take_take]
    exact wellFormed.magic
  have classIs : (bytes.take 16)[4]? = some 1 := by
    rw [List.getElem?_take_of_lt (by decide), wellFormed.class32]
  have start :
      (((Ifstream.ofBytes bytes).read 16).2.seekg 0).position = 0 := by
    simp [Ifstream.seekg, afterIdent.failed]
  have ident : ((Ifstream.ofBytes bytes).read 16).1 = bytes.take 16 :=
    gotIdent
  simp only [loadElf, ident, isElf, classIs, ↓reduceIte,
    extractSections_wellFormed wellFormed afterIdent.seekg start,
    Option.map_some]

end Loading

section Copying

variable {sh : Shdr} {buffer : Nat → Byte} {transfer : Transfer}

/-- The transfer of the word at some position of a section. -/
def wordTransfer
    (sh : Shdr)
    (buffer : Nat → Byte)
    (position : Nat)
    (addr : Bus32) :
    Transfer where
  shdr := sh
  position := position
  count := 4
  addr := addr
  data := LittleEndian.word buffer position

/-- One round moves the position and the address on by a word. -/
theorem wordTransfer_succ {round offset : Nat} {addr : Bus32} :
    wordTransfer sh buffer (offset + 4 * (round + 1))
        (addr + BitVec.ofNat 32 (4 * (round + 1))) =
      wordTransfer sh buffer (offset + 4 + 4 * round)
        (addr + 4 + BitVec.ofNat 32 (4 * round)) := by
  have position : offset + 4 * (round + 1) = offset + 4 + 4 * round := by
    omega
  have moved :
      addr + BitVec.ofNat 32 (4 * (round + 1)) =
        addr + 4 + BitVec.ofNat 32 (4 * round) := by
    rw [Nat.mul_succ, Nat.add_comm (4 * round), BitVec.ofNat_add,
      ← BitVec.add_assoc]
    rfl
  rw [position, moved]

/-- The transfers of the copy loop. -/
theorem mem_copyLoop {rounds offset : Nat} {addr : Bus32} :
    transfer ∈ (copyLoop sh buffer rounds offset addr).1 ↔
      ∃ round, round < rounds ∧ offset + 4 * round < sh.shSize ∧
        transfer =
          wordTransfer sh buffer (offset + 4 * round)
            (addr + BitVec.ofNat 32 (4 * round)) := by
  induction rounds generalizing offset addr with
  | zero => simp [copyLoop]
  | succ rounds inductionHypothesis =>
      by_cases inside : offset < sh.shSize
      · simp only [copyLoop, if_pos inside, List.mem_cons,
          inductionHypothesis]
        constructor
        · rintro (first | ⟨round, before, within, later⟩)
          · exact
              ⟨0, Nat.succ_pos rounds, inside,
                by simpa [wordTransfer] using first⟩
          · refine ⟨round + 1, Nat.succ_lt_succ before, by omega, ?_⟩
            rw [later, wordTransfer_succ]
        · rintro ⟨round, before, within, same⟩
          cases round with
          | zero => exact Or.inl (by simpa [wordTransfer] using same)
          | succ round =>
              refine Or.inr ⟨round, Nat.lt_of_succ_lt_succ before,
                by omega, ?_⟩
              rw [same, wordTransfer_succ]
      · simp only [copyLoop, if_neg inside, List.not_mem_nil, false_iff,
          not_exists, not_and]
        omega

/-- Every word of a section is transferred, the one that its end cuts
included. -/
theorem wordTransfer_mem_copySection {round : Nat}
    (inside : 4 * round < sh.shSize) :
    wordTransfer sh buffer (4 * round)
        (BitVec.ofNat 32 (sh.shAddr + 4 * round)) ∈
      copySection sh buffer := by
  refine List.mem_append_left _ (mem_copyLoop.mpr ⟨round, by omega, ?_⟩)
  rw [Nat.zero_add, BitVec.ofNat_add]
  exact ⟨inside, rfl⟩

/-- Nothing else is transferred of a section of whole words. -/
theorem mem_copySection_of_whole
    (whole : sh.shSize % 4 = 0)
    (member : transfer ∈ copySection sh buffer) :
    ∃ round, 4 * round < sh.shSize ∧
      transfer =
        wordTransfer sh buffer (4 * round)
          (BitVec.ofNat 32 (sh.shAddr + 4 * round)) := by
  simp only [copySection, copyTail, whole, ne_eq, not_true_eq_false,
    if_false, List.append_nil, mem_copyLoop] at member
  obtain ⟨round, -, inside, same⟩ := member
  rw [Nat.zero_add] at inside same
  exact ⟨round, inside, by rw [same, BitVec.ofNat_add]⟩

/-- A word holds what all transfers to it agree on. -/
theorem readMem_afterTransfers
    {transfers : List Transfer}
    {memory : Memory}
    {addr data : Bus32}
    (isWord : Memory.IsWord addr)
    (areWords : ∀ transfer ∈ transfers, Memory.IsWord transfer.addr)
    (agree :
      ∀ transfer ∈ transfers, transfer.addr = addr → transfer.data = data)
    (present :
      memory.readMem addr = data ∨
        ∃ transfer ∈ transfers, transfer.addr = addr) :
    (afterTransfers memory transfers).readMem addr = data := by
  induction transfers generalizing memory with
  | nil =>
      rcases present with already | ⟨transfer, member, -⟩
      · exact already
      · exact absurd member List.not_mem_nil
  | cons first rest inductionHypothesis =>
      rw [afterTransfers, List.foldl_cons]
      refine inductionHypothesis
        (fun transfer member =>
          areWords transfer (List.mem_cons_of_mem first member))
        (fun transfer member =>
          agree transfer (List.mem_cons_of_mem first member)) ?_
      have isFirst := areWords first List.mem_cons_self
      rw [Memory.readMem_writeMem isFirst isWord]
      by_cases here : addr = first.addr
      · left
        rw [if_pos here]
        exact agree first List.mem_cons_self here.symm
      · rw [if_neg here]
        rcases present with already | ⟨transfer, member, there⟩
        · exact Or.inl already
        · rcases List.mem_cons.mp member with rfl | later
          · exact absurd there.symm here
          · exact Or.inr ⟨transfer, later, there⟩

end Copying

section Image

variable {beyond : Shdr → Nat → Byte} {bytes : List Byte} {memory : Memory}
  {sh other : Shdr}

/-- What a section of the image promises. -/
theorem WellFormed.of_loaded
    (wellFormed : WellFormed bytes)
    (loaded : sh ∈ loadedSections bytes) :
    sh.shAddr % 4 = 0 ∧ sh.shAddr + sh.shSize ≤ 2 ^ 30 :=
  ⟨wellFormed.aligned sh loaded, wellFormed.fits sh loaded⟩

/-- Different sections of the image are apart. -/
theorem WellFormed.eq_or_apart
    (wellFormed : WellFormed bytes)
    (loaded : sh ∈ loadedSections bytes)
    (otherLoaded : other ∈ loadedSections bytes) :
    sh = other ∨ Apart sh other := by
  by_cases same : sh = other
  · exact Or.inl same
  · have symmetric : Std.Symm Apart := ⟨fun _ _ => Or.symm⟩
    exact Or.inr (wellFormed.apart.forall loaded otherLoaded same)

/-- The transfers to an image of whole words are its words. -/
theorem mem_imageTransfers
    (whole : ∀ sh ∈ loadedSections bytes, sh.shSize % 4 = 0)
    {transfer : Transfer}
    (member : transfer ∈ imageTransfers beyond bytes (sections bytes)) :
    ∃ sh ∈ loadedSections bytes, ∃ round, 4 * round < sh.shSize ∧
      transfer =
        wordTransfer sh (bufferOf beyond bytes sh) (4 * round)
          (BitVec.ofNat 32 (sh.shAddr + 4 * round)) := by
  obtain ⟨sh, loaded, copied⟩ := List.mem_flatMap.mp member
  exact ⟨sh, loaded, mem_copySection_of_whole (whole sh loaded) copied⟩

/-- Words of the image are words of the memory. -/
theorem WellFormed.toNat_word
    (wellFormed : WellFormed bytes)
    (loaded : sh ∈ loadedSections bytes)
    {round : Nat}
    (inside : 4 * round < sh.shSize) :
    (BitVec.ofNat 32 (sh.shAddr + 4 * round)).toNat =
      sh.shAddr + 4 * round := by
  obtain ⟨-, fits⟩ := wellFormed.of_loaded loaded
  rw [BitVec.toNat_ofNat]
  omega

/-- They are aligned and inside the array. -/
theorem WellFormed.isWord
    (wellFormed : WellFormed bytes)
    (loaded : sh ∈ loadedSections bytes)
    {round : Nat}
    (inside : 4 * round < sh.shSize) :
    Memory.IsWord (BitVec.ofNat 32 (sh.shAddr + 4 * round)) := by
  obtain ⟨aligned, fits⟩ := wellFormed.of_loaded loaded
  have place := wellFormed.toNat_word loaded inside
  exact ⟨by rw [place]; omega, by rw [place]; omega⟩

/-- A word of the image after the transfers. -/
theorem readMem_image
    (wellFormed : WellFormed bytes)
    (whole : ∀ sh ∈ loadedSections bytes, sh.shSize % 4 = 0)
    (loaded : sh ∈ loadedSections bytes)
    {round : Nat}
    (inside : 4 * round < sh.shSize) :
    (afterTransfers memory
        (imageTransfers beyond bytes (sections bytes))).readMem
          (BitVec.ofNat 32 (sh.shAddr + 4 * round)) =
      LittleEndian.word (bufferOf beyond bytes sh) (4 * round) := by
  apply readMem_afterTransfers (wellFormed.isWord loaded inside)
  · intro transfer member
    obtain ⟨source, sourceLoaded, sourceRound, sourceInside, rfl⟩ :=
      mem_imageTransfers whole member
    exact wellFormed.isWord sourceLoaded sourceInside
  · intro transfer member here
    obtain ⟨source, sourceLoaded, sourceRound, sourceInside, rfl⟩ :=
      mem_imageTransfers whole member
    have sameAddr := congrArg BitVec.toNat here
    simp only [wordTransfer, wellFormed.toNat_word loaded inside,
      wellFormed.toNat_word sourceLoaded sourceInside] at sameAddr
    have wholeSource := whole source sourceLoaded
    rcases wellFormed.eq_or_apart sourceLoaded loaded with rfl | apart
    · have sameRound : sourceRound = round := by omega
      rw [sameRound]
      rfl
    · have wholeSection := whole sh loaded
      rcases apart with before | behind
      · omega
      · omega
  · exact
      Or.inr
        ⟨_,
          List.mem_flatMap.mpr
            ⟨sh, loaded, wordTransfer_mem_copySection inside⟩,
          rfl⟩

/-- Inside a section, its buffer holds the bytes of the file. -/
theorem bufferOf_of_lt
    (wellFormed : WellFormed bytes)
    (loaded : sh ∈ loadedSections bytes)
    {place : Nat}
    (inside : place < sh.shSize) :
    bufferOf beyond bytes sh place =
      vectorByte bytes (sh.shOffset + place) := by
  obtain ⟨listed, kept⟩ := List.mem_filter.mp loaded
  have full : hasContents sh = true :=
    (Bool.and_eq_true_iff.mp kept).1
  have inFile := wellFormed.inside sh listed full
  have known : place < (contents bytes sh).length := by
    rw [contents, List.length_take, List.length_drop]
    omega
  rw [← vectorByte_part inside, bufferOf, vectorByte,
    List.getD_eq_getElem _ _ known]
  exact (List.getD_eq_getElem _ _ known).symm

/-- An image of whole words is loaded exactly. -/
theorem imageExact_of_whole
    (wellFormed : WellFormed bytes)
    (whole : ∀ sh ∈ loadedSections bytes, sh.shSize % 4 = 0) :
    ImageExact bytes memory
      (imageTransfers beyond bytes (sections bytes)) where
  image := by
    intro sh loaded place inside
    obtain ⟨aligned, -⟩ := wellFormed.of_loaded loaded
    have wordInside : 4 * (place / 4) < sh.shSize := by omega
    have address :
        (sh.shAddr + place) / 4 * 4 = sh.shAddr + 4 * (place / 4) := by
      omega
    have inWord : (sh.shAddr + place) % 4 = place % 4 := by omega
    rw [memoryByte, address, inWord,
      readMem_image wellFormed whole loaded wordInside,
      LittleEndian.byteOf_word _ _ (Nat.mod_lt place (by decide)),
      Nat.div_add_mod, bufferOf_of_lt wellFormed loaded inside]
  reads := by
    intro transfer member place inside
    obtain ⟨sh, loaded, round, roundInside, rfl⟩ :=
      mem_imageTransfers whole member
    have wholeSection := whole sh loaded
    simp only [wordTransfer] at inside ⊢
    omega
  writes := by
    intro transfer member
    obtain ⟨sh, loaded, round, roundInside, rfl⟩ :=
      mem_imageTransfers whole member
    refine ⟨sh, loaded, 4 * round, roundInside, ?_⟩
    rw [wordTransfer, wellFormed.toNat_word loaded roundInside]

/-- Only an image of whole words is: the last word of another section is read
from behind the buffer. -/
theorem whole_of_imageExact
    (exactly :
      ImageExact bytes memory
        (imageTransfers beyond bytes (sections bytes)))
    (loaded : sh ∈ loadedSections bytes) :
    sh.shSize % 4 = 0 := by
  by_contra cut
  have inside : 4 * (sh.shSize / 4) < sh.shSize := by omega
  have read :=
    exactly.reads _
      (List.mem_flatMap.mpr
        ⟨sh, loaded, wordTransfer_mem_copySection inside⟩)
      3 (show 3 < 4 by decide)
  simp only [wordTransfer] at read
  omega

/-- The bytes of the magic are the first four. -/
theorem loadElf_opened
    {transfers : List Transfer}
    (returned : loadElf beyond (some bytes) = some (true, transfers)) :
    bytes.take 4 = magic := by
  have ident :
      ((Ifstream.ofBytes bytes).read 16).1 = bytes.take 16 := rfl
  cases isElf : hasMagic magic (bytes.take 16) with
  | none => simp [loadElf, ident, isElf] at returned
  | some found =>
      cases found with
      | false => simp [loadElf, ident, isElf] at returned
      | true =>
          rw [hasMagic_eq_true, List.take_take] at isElf
          exact isElf

end Image

section CutSection

/-- The bytes of a number. -/
def bytesOf : Nat → Nat → List Byte
  | 0, _ => []
  | width + 1, value => BitVec.ofNat 8 value :: bytesOf width (value / 256)

/-- The bytes of a section header. -/
def shdrBytes (sh : Shdr) : List Byte :=
  bytesOf 4 sh.shName ++ bytesOf 4 sh.shType ++
    bytesOf 4 0 ++ bytesOf 4 sh.shAddr ++
    bytesOf 4 sh.shOffset ++ bytesOf 4 sh.shSize ++
    bytesOf 16 0

/-- An executable with four bytes of data at address 8 and six bytes of code
at address 0. -/
def cutFile : List Byte :=
  magic ++ [1, 1, 1] ++ bytesOf 9 0 ++
    bytesOf 2 2 ++ bytesOf 2 243 ++
    bytesOf 4 1 ++ bytesOf 4 0 ++
    bytesOf 4 0 ++ bytesOf 4 52 ++
    bytesOf 4 0 ++ bytesOf 2 52 ++
    bytesOf 4 0 ++ bytesOf 2 40 ++
    bytesOf 2 4 ++ bytesOf 2 3 ++
    shdrBytes ⟨0, 0, 0, 0, 0⟩ ++
    shdrBytes ⟨7, 1, 8, 235, 4⟩ ++
    shdrBytes ⟨1, 1, 0, 239, 6⟩ ++
    shdrBytes ⟨13, 3, 0, 212, 23⟩ ++
    [0] ++ textName ++ [0] ++ dataName ++ [0] ++
    [0x2e, 0x73, 0x68, 0x73, 0x74, 0x72, 0x74, 0x61, 0x62, 0] ++
    [0xd1, 0xd2, 0xd3, 0xd4] ++
    [0x13, 0x05, 0x10, 0x00, 0x05, 0x05]

instance (first second : Shdr) : Decidable (Apart first second) :=
  inferInstanceAs (Decidable (_ ∨ _))

/-- It is well-formed. -/
theorem cutFile_wellFormed : WellFormed cutFile where
  magic := by decide +kernel
  class32 := by decide +kernel
  littleEndian := by decide +kernel
  header := by decide +kernel
  entrySize := by decide +kernel
  table := by decide +kernel
  nameSection_lt := by decide +kernel
  names := by decide +kernel
  named := by decide +kernel
  inside := by decide +kernel
  aligned := by decide +kernel
  fits := by decide +kernel
  apart := by decide +kernel

/-- The rest of its code lands on its data. -/
example :
    (loadElf (fun _ _ => 0) (some cutFile)).map
        (fun loaded => (afterTransfers (fun _ => 0) loaded.2).readMem 8) =
      some 0x0505 := by
  decide +kernel

end CutSection

end Elf

end Tartaruga
