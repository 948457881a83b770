import Tartaruga.OpcodeDecoding

namespace Tartaruga

/-!
# Source registers

The decoder first copies both source fields from their fixed places and then
replaces those that the instruction does not read by x0.  The replacement
passes over indirect jumps.
-/

open Rv32 (Mnemonic)

namespace Decoder

section Words

variable {mnemonic : Mnemonic} {word : Bus32} (pc : Bus32)
  (robIdx : RobIdx) (idDecode : Nat)

/-- The source registers of an instruction of the subset.  Those of an
indirect jump are left as they stand in the word. -/
theorem decoder_sources (encodes : mnemonic.Encodes word) :
    (decoder pc word robIdx idDecode).addrRs1 =
        (if mnemonic.readsRs1 then Word.rs1 word else 0) ∧
      (decoder pc word robIdx idDecode).addrRs2 =
        (if mnemonic.readsRs2 ∨ mnemonic = .transfer .jalr then
          Word.rs2 word
        else 0) := by
  have opcode := opcode_of_encodes encodes
  cases mnemonic with
  | op operation =>
      rw [decoder_alu pc robIdx idDecode opcode
        (func3_of_encodes encodes rfl) (func7_of_encodes encodes rfl)]
      exact ⟨rfl, rfl⟩
  | opImm operation =>
      rw [decoder_aluI pc robIdx idDecode opcode
        (opAluI_immediate (func3_of_encodes encodes rfl))]
      exact ⟨rfl, rfl⟩
  | shiftImm operation =>
      rw [decoder_aluI pc robIdx idDecode opcode
        (opAluI_shift (func3_of_encodes encodes rfl)
          (func7_of_encodes encodes rfl))]
      exact ⟨rfl, rfl⟩
  | lui =>
      rw [decoder_lui pc robIdx idDecode opcode]
      exact ⟨rfl, rfl⟩
  | auipc =>
      rw [decoder_auipc pc robIdx idDecode opcode]
      exact ⟨rfl, rfl⟩
  | lw =>
      rw [decoder_lw pc robIdx idDecode opcode]
      exact ⟨rfl, rfl⟩
  | sw =>
      rw [decoder_sw pc robIdx idDecode opcode]
      exact ⟨rfl, rfl⟩
  | transfer transfer =>
      cases transfer with
      | branch condition =>
          have func3 := func3_of_encodes encodes rfl
          rw [decoder_branch pc robIdx idDecode opcode, func3,
            branchKind_funct3]
          cases condition <;> exact ⟨rfl, rfl⟩
      | jal =>
          rw [decoder_jal pc robIdx idDecode opcode]
          exact ⟨rfl, rfl⟩
      | jalr =>
          rw [decoder_jalr pc robIdx idDecode opcode]
          exact ⟨rfl, rfl⟩

end Words

/-- The decoder names exactly the registers that the instruction reads, and x0
where it reads none. -/
structure SourcesExact
    (mnemonic : Mnemonic)
    (word : Bus32)
    (data : InstrData) :
    Prop where
  addrRs1 : data.addrRs1 = if mnemonic.readsRs1 then Word.rs1 word else 0
  addrRs2 : data.addrRs2 = if mnemonic.readsRs2 then Word.rs2 word else 0

/--
The source registers of an instruction are the ones it reads, unless it is an
indirect jump whose immediate has a bit set in the place of the second source.
-/
theorem sourcesExact_iff
    (mnemonic : Mnemonic)
    (word : Bus32)
    (encodes : mnemonic.Encodes word)
    (pc : Bus32)
    (robIdx : RobIdx)
    (idDecode : Nat) :
    SourcesExact mnemonic word (decoder pc word robIdx idDecode) ↔
      (mnemonic = .transfer .jalr → Word.rs2 word = 0) := by
  obtain ⟨first, second⟩ := decoder_sources pc robIdx idDecode encodes
  constructor
  · intro exact isJalr
    have notRead := exact.addrRs2
    rw [second, isJalr] at notRead
    exact notRead
  · intro unused
    refine ⟨first, second.trans ?_⟩
    by_cases isJalr : mnemonic = .transfer .jalr
    · rw [isJalr, unused isJalr]
      rfl
    · simp only [isJalr, or_false]

/-- An addition reads both of its sources. -/
theorem sourcesExact_iff_add :
    SourcesExact (.op .add) 0x005201b3 -- add x3, x4, x5
      (decoder 0 0x005201b3 0 0) :=
  (sourcesExact_iff (.op .add) 0x005201b3 (by decide) 0 0 0).mpr nofun

/-- `jalr x0, 4(x1)` waits for x4. -/
theorem jalr_sources_not_exact :
    ¬∀ (mnemonic : Mnemonic) (word : Bus32),
      mnemonic.Encodes word →
        ∀ (pc : Bus32) (robIdx : RobIdx) (idDecode : Nat),
          SourcesExact mnemonic word
            (decoder pc word robIdx idDecode) := by
  intro exact
  have second :=
    (exact (.transfer .jalr) 0x00408067 (by decide) 0 0 0).addrRs2
  revert second
  decide

end Decoder

end Tartaruga
