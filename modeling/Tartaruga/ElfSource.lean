import Tartaruga.DataCacheSource
import Tartaruga.LittleEndian

namespace Tartaruga

/-!
# The program loader

`load_elf` of the simulator: it reads the section table of an executable and
copies the sections named `.text` and `.data` into the memory, word by word.
A computation that depends on a value that was never written, or on an element
outside a vector, has no result here.
-/

open LittleEndian (Byte)

/-- An input file stream.  It stays failed once a read ended early. -/
structure Ifstream where
  bytes : List Byte
  position : Nat
  failed : Bool
  deriving Repr, DecidableEq

namespace Ifstream

/-- Open a stream at the beginning of the file. -/
def ofBytes (bytes : List Byte) : Ifstream where
  bytes := bytes
  position := 0
  failed := false

/-- Move to a position counted from the beginning. -/
def seekg (elf : Ifstream) (position : Nat) : Ifstream :=
  if elf.failed then elf else { elf with position := position }

/-- The bytes that a read of some length gets, and the stream after it. -/
def read (elf : Ifstream) (count : Nat) : List Byte × Ifstream :=
  if elf.failed then
    ([], elf)
  else
    let got := (elf.bytes.drop elf.position).take count
    (got,
      { elf with
        position := elf.position + got.length
        failed := decide (got.length < count) })

/-- Read into a new vector, whose elements are zero before. -/
def readVector (elf : Ifstream) (count : Nat) : List Byte × Ifstream :=
  let (got, elf) := elf.read count
  (got ++ List.replicate (count - got.length) 0, elf)

end Ifstream

namespace Elf

/-- The parameters of `extract_sections`: the sizes of the two header types
and the places of their fields.  Addresses, offsets and sizes have `word`
bytes. -/
structure Layout where
  word : Nat
  ehdrSize : Nat
  eShoff : Nat
  eShnum : Nat
  eShstrndx : Nat
  shdrSize : Nat
  shAddr : Nat
  shOffset : Nat
  shSize : Nat
  deriving Repr, DecidableEq

/-- `Elf32_Ehdr` and `Elf32_Shdr`. -/
def elf32 : Layout where
  word := 4
  ehdrSize := 52
  eShoff := 32
  eShnum := 48
  eShstrndx := 50
  shdrSize := 40
  shAddr := 12
  shOffset := 16
  shSize := 20

/-- `Elf64_Ehdr` and `Elf64_Shdr`. -/
def elf64 : Layout where
  word := 8
  ehdrSize := 64
  eShoff := 40
  eShnum := 60
  eShstrndx := 62
  shdrSize := 64
  shAddr := 16
  shOffset := 24
  shSize := 32

/-- A section header. -/
structure Shdr where
  shName : Nat
  shType : Nat
  shAddr : Nat
  shOffset : Nat
  shSize : Nat
  deriving Repr, DecidableEq

/-- The type of a section that has no contents in the file. -/
def shtNobits : Nat := 8

/-- The bytes of a vector; what stands behind them is not part of it. -/
def vectorByte (bytes : List Byte) (position : Nat) : Byte :=
  bytes.getD position 0

/-- The section header at a position. -/
def shdrAt (layout : Layout) (bytes : Nat → Byte) (position : Nat) : Shdr where
  shName := LittleEndian.number bytes position 4
  shType := LittleEndian.number bytes (position + 4) 4
  shAddr :=
    LittleEndian.number bytes (position + layout.shAddr) layout.word
  shOffset :=
    LittleEndian.number bytes (position + layout.shOffset) layout.word
  shSize :=
    LittleEndian.number bytes (position + layout.shSize) layout.word

/-- The string at a position of a table, which has to end inside it. -/
def cString (table : List Byte) (start : Nat) : Option (List Byte) :=
  let rest := table.drop start
  if 0 ∈ rest then some (rest.takeWhile fun byte => byte ≠ 0) else none

/-- `.text` -/
def textName : List Byte := [0x2e, 0x74, 0x65, 0x78, 0x74]

/-- `.data` -/
def dataName : List Byte := [0x2e, 0x64, 0x61, 0x74, 0x61]

/-- A `memcpy` from the buffer of a section, and the `write_mem` of what it
got. -/
structure Transfer where
  shdr : Shdr
  position : Nat
  count : Nat
  addr : Bus32
  data : Bus32
  deriving Repr, DecidableEq

section Copy

variable (sh : Shdr) (buffer : Nat → Byte)

/-- The copy loop, from an offset and an address on: its transfers, and the
address that it leaves. -/
def copyLoop : Nat → Nat → Bus32 → List Transfer × Bus32
  | 0, _, addr => ([], addr)
  | rounds + 1, offset, addr =>
      if offset < sh.shSize then
        let (rest, last) := copyLoop rounds (offset + 4) (addr + 4)
        ({ shdr := sh
           position := offset
           count := 4
           addr := addr
           data := LittleEndian.word buffer offset } :: rest,
          last)
      else
        ([], addr)

/-- The handling of a size that is not a multiple of four. -/
def copyTail (addr : Bus32) : List Transfer :=
  if sh.shSize % 4 ≠ 0 then
    let remaining := sh.shSize % 4
    [{ shdr := sh
       position := sh.shSize - remaining
       count := remaining
       addr := addr
       data :=
         BitVec.ofNat 32
           (LittleEndian.number buffer (sh.shSize - remaining)
             remaining) }]
  else
    []

/-- The copy of one section.  The loop takes fewer rounds than there are
bytes. -/
def copySection : List Transfer :=
  let (words, addr) :=
    copyLoop sh buffer sh.shSize 0 (BitVec.ofNat 32 sh.shAddr)
  words ++ copyTail sh buffer addr

end Copy

/-- The loop over the section headers.  `beyond` is what stands in memory
behind the buffer of a section. -/
def loadSections
    (beyond : Shdr → Nat → Byte)
    (shstrtab : List Byte) :
    List Shdr → Ifstream → Option (List Transfer)
  | [], _ => some []
  | sh :: rest, elf =>
      if sh.shType = shtNobits ∨ sh.shSize = 0 then
        loadSections beyond shstrtab rest elf
      else
        match cString shstrtab sh.shName with
        | none => none
        | some name =>
            let (data, elf) := (elf.seekg sh.shOffset).readVector sh.shSize
            let here :=
              if name = textName ∨ name = dataName then
                copySection sh fun position =>
                  data.getD position (beyond sh position)
              else
                []
            (loadSections beyond shstrtab rest elf).map fun there =>
              here ++ there

/-- `extract_sections`. -/
def extractSections
    (layout : Layout)
    (beyond : Shdr → Nat → Byte)
    (elf : Ifstream) :
    Option (List Transfer) :=
  let (ehdr, elf) := elf.read layout.ehdrSize
  if elf.failed then
    -- the fields of the header stay uninitialised
    none
  else
    let header := vectorByte ehdr
    let eShoff := LittleEndian.number header layout.eShoff layout.word
    let eShnum := LittleEndian.number header layout.eShnum 2
    let eShstrndx := LittleEndian.number header layout.eShstrndx 2
    let (table, elf) :=
      (elf.seekg eShoff).readVector (eShnum * layout.shdrSize)
    let shdrs :=
      (List.range eShnum).map fun number =>
        shdrAt layout (vectorByte table) (number * layout.shdrSize)
    match shdrs[eShstrndx]? with
    | none => none
    | some shstr =>
        let (shstrtab, elf) :=
          (elf.seekg shstr.shOffset).readVector shstr.shSize
        loadSections beyond shstrtab shdrs elf

/-- The first four bytes of an executable. -/
def magic : List Byte := [0x7f, 0x45, 0x4c, 0x46]

/-- The comparison with the expected bytes, which ends at the first
difference. -/
def hasMagic : List Byte → List Byte → Option Bool
  | [], _ => some true
  | _ :: _, [] => none
  | expected :: laterExpected, byte :: laterBytes =>
      if byte ≠ expected then some false
      else hasMagic laterExpected laterBytes

/-- `load_elf` on the contents of the file, if it can be opened: what it
returns, and the transfers to the memory. -/
def loadElf
    (beyond : Shdr → Nat → Byte) :
    Option (List Byte) → Option (Bool × List Transfer)
  | none => some (true, []) -- `return 1` in a function that returns `bool`
  | some bytes =>
      let (ident, elf) := (Ifstream.ofBytes bytes).read 16
      match hasMagic magic ident with
      | none => none
      | some false => some (false, [])
      | some true =>
          let elf := elf.seekg 0
          match ident[4]? with
          | none => none
          | some elfClass =>
              if elfClass = 1 then
                (extractSections elf32 beyond elf).map fun transfers =>
                  (true, transfers)
              else if elfClass = 2 then
                (extractSections elf64 beyond elf).map fun transfers =>
                  (true, transfers)
              else
                some (false, [])

/-- The memory after the transfers. -/
def afterTransfers (memory : Memory) (transfers : List Transfer) : Memory :=
  transfers.foldl
    (fun memory transfer => memory.writeMem transfer.addr transfer.data)
    memory

end Elf

end Tartaruga
