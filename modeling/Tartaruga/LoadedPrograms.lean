import Tartaruga.ElfImage
import Tartaruga.ProgramExecution

namespace Tartaruga

/-!
# Executables are executed

From the bytes of an executable to the core: the loader copies the image into
the memory, which is zero before, and the core executes the instructions that
the image holds.
-/

open LittleEndian (Byte)
open Rv32 (Code Executes Program)

namespace Elf

variable {beyond : Shdr → Nat → Byte} {bytes : List Byte} {sh : Shdr}
  {round : Nat} {transfers : List Transfer}

/-- A word of a section in the file. -/
def fileWord (bytes : List Byte) (sh : Shdr) (round : Nat) : Bus32 :=
  LittleEndian.word (vectorByte bytes) (sh.shOffset + 4 * round)

/-- All words of the image satisfy a property. -/
def ImageWords (bytes : List Byte) (property : Bus32 → Prop) : Prop :=
  ∀ sh ∈ loadedSections bytes,
    ∀ round, 4 * round < sh.shSize → property (fileWord bytes sh round)

/-- The image holds a program: the words at its addresses are those of its
instructions. -/
def ImageHolds (bytes : List Byte) (program : Program) : Prop :=
  ∀ pc code,
    program pc = some code →
    ∃ sh ∈ loadedSections bytes,
      ∃ round,
        4 * round < sh.shSize ∧
          pc = BitVec.ofNat 32 (sh.shAddr + 4 * round) ∧
          fileWord bytes sh round = code.encode

/-- A well-formed executable of whole words. -/
structure Whole (bytes : List Byte) : Prop where
  wellFormed : WellFormed bytes
  whole : ∀ sh ∈ loadedSections bytes, sh.shSize % 4 = 0

/-- The memory is cleared before its first access. -/
def zeros : Memory :=
  fun _ => 0

section Loaded

variable (isWhole : Whole bytes)
  (returned : loadElf beyond (some bytes) = some (true, transfers))
include isWhole returned

/-- The loader has made the transfers of the image. -/
theorem transfers_eq :
    transfers = imageTransfers beyond bytes (sections bytes) := by
  rw [loadElf_wellFormed isWhole.wellFormed] at returned
  cases returned
  rfl

/-- The words of the image are in the memory. -/
theorem readMem_loaded
    (loaded : sh ∈ loadedSections bytes)
    (inside : 4 * round < sh.shSize) :
    (afterTransfers zeros transfers).readMem
        (BitVec.ofNat 32 (sh.shAddr + 4 * round)) =
      fileWord bytes sh round := by
  rw [transfers_eq isWhole returned,
    readMem_image isWhole.wellFormed isWhole.whole loaded inside]
  have whole := isWhole.whole sh loaded
  apply congrArg (BitVec.ofNat 32)
  apply LittleEndian.number_congr
  intro place before
  rw [Nat.add_assoc]
  exact bufferOf_of_lt isWhole.wellFormed loaded (by omega)

/-- A word of the memory is a word of the image, or zero. -/
theorem readMem_loaded_cases
    {addr : Bus32}
    (isWord : Memory.IsWord addr) :
    (∃ sh ∈ loadedSections bytes,
        ∃ round,
          4 * round < sh.shSize ∧
            (afterTransfers zeros transfers).readMem addr =
              fileWord bytes sh round) ∨
      (afterTransfers zeros transfers).readMem addr = 0 := by
  by_cases there : ∃ transfer ∈ transfers, transfer.addr = addr
  · obtain ⟨transfer, member, rfl⟩ := there
    have isImage := member
    rw [transfers_eq isWhole returned] at isImage
    obtain ⟨sh, loaded, round, inside, rfl⟩ :=
      mem_imageTransfers isWhole.whole isImage
    exact
      .inl
        ⟨sh, loaded, round, inside,
          readMem_loaded isWhole returned loaded inside⟩
  · right
    apply readMem_afterTransfers isWord
    · intro transfer member
      rw [transfers_eq isWhole returned] at member
      obtain ⟨sh, loaded, round, inside, rfl⟩ :=
        mem_imageTransfers isWhole.whole member
      exact isWhole.wellFormed.isWord loaded inside
    · exact fun transfer member here => (there ⟨transfer, member, here⟩).elim
    · left
      simp [Memory.readMem, zeros]

/-- What all words of the image satisfy, and zero too, is satisfied by all
words that fetch can read. -/
theorem programWord_loaded
    {property : Bus32 → Prop}
    (image : ImageWords bytes property)
    (zero : property 0)
    (pc : Bus32) :
    property (Core.programWord (afterTransfers zeros transfers) pc) := by
  rw [Core.programWord]
  by_cases inside : Memory.inRange (wordAligned pc) = true
  · have isWord : Memory.IsWord (wordAligned pc) := by
      apply Memory.isWord_of_inRange _ inside
      simp only [wordAligned, BitFields.toNat_append_eq,
        BitVec.toNat_ofNat]
      omega
    rcases readMem_loaded_cases isWhole returned isWord with
      ⟨sh, loaded, round, within, isFile⟩ | isZero
    · rw [isFile]
      exact image sh loaded round within
    · rw [isZero]
      exact zero
  · rw [Memory.readMem, if_neg inside]
    exact zero

/-- The program that the image holds is the program of the memory. -/
theorem assembled_loaded
    {program : Program}
    (holds : ImageHolds bytes program) :
    Assembled program
      (Core.programWord (afterTransfers zeros transfers)) := by
  intro pc code held
  obtain ⟨sh, loaded, round, inside, rfl, isCode⟩ := holds pc code held
  have isWord := isWhole.wellFormed.isWord loaded inside
  rw [Core.programWord, wordAligned_eq_self isWord.aligned,
    readMem_loaded isWhole returned loaded inside, isCode]

end Loaded

/--
An executable of plain words is loaded and executed: once `load_elf` has
returned `true`, and in every cycle from every power-up state of the core,

* the commits are an execution of the program in the image by the instruction
  set;
* the register file holds what the instruction set leaves there, the last
  register apart;
* the memory is as it was loaded;
* there have been as many commits as there were groups of 52 cycles;

provided that the execution stays in the program, takes no branch beyond two
kilobytes and makes no indirect jump to an odd sum.
-/
theorem image_executed
    (isWhole : Whole bytes)
    (returned : loadElf beyond (some bytes) = some (true, transfers))
    (plain : ImageWords bytes PlainWord)
    {powerUp : Core}
    (isLoaded : powerUp.ownMemory = afterTransfers zeros transfers)
    {program : Program}
    (holds : ImageHolds bytes program)
    (meets :
      program.Meets wordAccess (Rv32.State.start powerUp.ownMemory)
        WithinReach)
    (cycle : Nat) :
    ∃ state,
      Executes wordAccess program (Rv32.State.start powerUp.ownMemory)
          (powerUp.retirements cycle) state ∧
        (∀ register,
          register ≠ 31 →
          (powerUp.run cycle).datapath.regfile register =
            state.registers register) ∧
        (powerUp.run cycle).datapath.mem.memory = state.memory ∧
        cycle / 52 ≤ (powerUp.retirements cycle).length := by
  have words :
      powerUp.ownWord =
        Core.programWord (afterTransfers zeros transfers) :=
    congrArg Core.programWord isLoaded
  have everywhere : ∀ pc, PlainWord (powerUp.ownWord pc) := by
    rw [words]
    exact programWord_loaded isWhole returned plain (by decide)
  have assembled : Assembled program powerUp.ownWord := by
    rw [words]
    exact assembled_loaded isWhole returned holds
  exact Core.executed_of_plainWords everywhere assembled meets cycle

/-- An executable with the loop that counts up at address 0. -/
def loopFile : List Byte :=
  magic ++ [1, 1, 1] ++ bytesOf 9 0 ++
    bytesOf 2 2 ++ bytesOf 2 243 ++
    bytesOf 4 1 ++ bytesOf 4 0 ++
    bytesOf 4 0 ++ bytesOf 4 52 ++
    bytesOf 4 0 ++ bytesOf 2 52 ++
    bytesOf 4 0 ++ bytesOf 2 40 ++
    bytesOf 2 3 ++ bytesOf 2 2 ++
    shdrBytes ⟨0, 0, 0, 0, 0⟩ ++
    shdrBytes ⟨1, 1, 0, 189, 12⟩ ++
    shdrBytes ⟨7, 3, 0, 172, 17⟩ ++
    [0] ++ textName ++ [0] ++
    [0x2e, 0x73, 0x68, 0x73, 0x74, 0x72, 0x74, 0x61, 0x62, 0] ++
    Core.countUpCodes.flatMap fun code => bytesOf 4 code.encode.toNat

/-- The section of its code. -/
def loopText : Shdr :=
  ⟨1, 1, 0, 189, 12⟩

theorem loadedSections_loopFile : loadedSections loopFile = [loopText] := by
  decide +kernel

/-- The words of its code. -/
theorem fileWord_loopFile {round : Nat} (inside : round < 3) :
    some (fileWord loopFile loopText round) =
      (Core.countUpCodes.map Code.encode)[round]? := by
  revert round
  decide +kernel

/-- It is well-formed and whole. -/
theorem loopFile_whole : Whole loopFile where
  wellFormed := {
    magic := by decide +kernel
    class32 := by decide +kernel
    littleEndian := by decide +kernel
    header := by decide +kernel
    entrySize := by decide +kernel
    table := by decide +kernel
    nameSection_lt := by decide +kernel
    names := by decide +kernel
    named := by decide +kernel
    inside := by decide +kernel
    aligned := by decide +kernel
    fits := by decide +kernel
    apart := by decide +kernel }
  whole := by decide +kernel

/-- It holds the loop. -/
theorem loopFile_holds :
    ImageHolds loopFile (Program.ofList Core.countUpCodes) := by
  intro pc code held
  obtain ⟨index, found, rfl⟩ := Program.ofList_eq_some held
  obtain ⟨short, _⟩ := List.getElem?_eq_some_iff.mp found
  have inside : index < 3 := short
  refine
    ⟨loopText, by simp [loadedSections_loopFile], index, ?_, ?_, ?_⟩
  · change 4 * index < 12
    omega
  · simp [loopText]
  · have isWord := fileWord_loopFile inside
    rw [List.getElem?_map, found] at isWord
    exact Option.some.inj isWord

/-- Its words are plain. -/
theorem loopFile_plain : ImageWords loopFile PlainWord := by
  intro sh loaded round inside
  rw [loadedSections_loopFile] at loaded
  obtain rfl := List.mem_singleton.mp loaded
  have within : round < 3 := by
    change 4 * round < 12 at inside
    omega
  have member := List.mem_of_getElem? (fileWord_loopFile within).symm
  obtain ⟨code, isCode, isWord⟩ := List.mem_map.mp member
  have arePlain :
      ∀ code ∈ Core.countUpCodes,
        code.accesses = false ∧ code.multiplies = false ∧
          31 ∉ code.named := by
    decide
  obtain ⟨noAccess, noMul, avoids⟩ := arePlain code isCode
  rw [← isWord]
  exact plainWord_encode noAccess noMul avoids

/-- The core with a memory. -/
def withMemory (memory : Memory) : Core where
  datapath := {
    (Core.withProgram []).datapath with
    mem := {
      (Core.withProgram []).datapath.mem with
      memory := memory } }
  icache := .reset
  imemWrapper := .reset

/-- The transfers of the loop. -/
def loopTransfers : List Transfer :=
  imageTransfers (fun _ _ => 0) loopFile (sections loopFile)

/-- The loop is loaded and executed. -/
theorem image_executed_loopFile :
    ∃ state,
      Executes wordAccess (Program.ofList Core.countUpCodes)
          (Rv32.State.start
            (withMemory (afterTransfers zeros loopTransfers)).ownMemory)
          ((withMemory
              (afterTransfers zeros loopTransfers)).retirements 520)
          state ∧
        (∀ register,
          register ≠ 31 →
          ((withMemory
                (afterTransfers zeros loopTransfers)).run
                  520).datapath.regfile register =
            state.registers register) ∧
        ((withMemory
              (afterTransfers zeros loopTransfers)).run
                520).datapath.mem.memory =
          state.memory ∧
        520 / 52 ≤
          ((withMemory
              (afterTransfers zeros loopTransfers)).retirements
                520).length := by
  have closed : (Program.ofList Core.countUpCodes).Closed :=
    Program.closed_ofList (by decide +kernel)
  have returned :
      loadElf (fun _ _ => 0) (some loopFile) = some (true, loopTransfers) :=
    loadElf_wellFormed loopFile_whole.wellFormed
  have isLoaded :
      (withMemory (afterTransfers zeros loopTransfers)).ownMemory =
        afterTransfers zeros loopTransfers :=
    rfl
  exact
    image_executed loopFile_whole returned loopFile_plain isLoaded
      loopFile_holds (meets_withinReach closed (by decide) (by decide) _) 520

end Elf

end Tartaruga
