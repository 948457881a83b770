import Tartaruga.Package
import Tartaruga.Decoder
import Tartaruga.Execute
import Tartaruga.RobSource
import Tartaruga.StoreBufferSource
import Tartaruga.DataCacheSource
import Tartaruga.FetchSource
import Tartaruga.MemStage
import Tartaruga.Datapath
import Tartaruga.Clocked
import Tartaruga.Ring
import Tartaruga.BitFields
import Tartaruga.CompletionQueue
import Tartaruga.DrainQueue
import Tartaruga.RiscvFormats
import Tartaruga.RiscvArithmetic
import Tartaruga.StrictEvaluation
import Tartaruga.RobWindow
import Tartaruga.RobFifo
import Tartaruga.RobHazard
import Tartaruga.StoreBufferWindow
import Tartaruga.StoreBufferDrain
import Tartaruga.StoreBufferBypass
import Tartaruga.StoreBufferForwarding
import Tartaruga.ImmediateDecoding
import Tartaruga.ArithmeticDecoding
import Tartaruga.ExeOutcome
import Tartaruga.MemoryLines
import Tartaruga.PipelinedMemory
import Tartaruga.FetchCoherence
import Tartaruga.DecodedShape
import Tartaruga.CoreRun
import Tartaruga.CoreEvaluation
import Tartaruga.RegisterFile
import Tartaruga.Carriers
import Tartaruga.InFlightIdentity
import Tartaruga.LiveCarriers
import Tartaruga.SingleDelivery
import Tartaruga.StoreFlow
import Tartaruga.BufferedStores
import Tartaruga.CommittedStores
import Tartaruga.Leftovers
import Tartaruga.StaleResponses
import Tartaruga.ResetHistory
import Tartaruga.CommitChain
import Tartaruga.DataCacheMiss
import Tartaruga.DataCacheFlat
import Tartaruga.MissStability
import Tartaruga.RegisterPrograms
import Tartaruga.SequentialMachine
import Tartaruga.RegisterPipeline
import Tartaruga.PipelineValues
import Tartaruga.SequentialRefinement
import Tartaruga.RiscvGrammar
import Tartaruga.OpcodeDecoding
import Tartaruga.SourceRegisters
import Tartaruga.UnsupportedWords
import Tartaruga.ControlTransfers
import Tartaruga.Replacement
import Tartaruga.Handshake
import Tartaruga.ProgramOutput
import Tartaruga.MemoryHandshake
import Tartaruga.LittleEndian
import Tartaruga.ElfSource
import Tartaruga.ElfImage
import Tartaruga.KanataSource
import Tartaruga.TraceRecords
import Tartaruga.DueResults
import Tartaruga.ForwardedValues
import Tartaruga.Progress
import Tartaruga.FetchProgress
import Tartaruga.PipelineProgress
import Tartaruga.CommitProgress
import Tartaruga.UntouchedMemory
import Tartaruga.StraightPrograms
import Tartaruga.RegisterExecution
import Tartaruga.Stepping
import Tartaruga.MemoryMachine
import Tartaruga.AccessOrder
import Tartaruga.AccessValues
import Tartaruga.AccessRefinement
import Tartaruga.BufferedMemory
import Tartaruga.LoadAnswers
import Tartaruga.AccessExecution
import Tartaruga.DataCacheProgress
import Tartaruga.MemoryProgress
import Tartaruga.CoreProgress
import Tartaruga.RiscvExecution
import Tartaruga.InstructionEffects
import Tartaruga.InstructionRefinement
import Tartaruga.AssembledPrograms
import Tartaruga.ProgramExecution
import Tartaruga.Looping
import Tartaruga.Simulator
import Tartaruga.Verdicts
import Tartaruga.Watchdog
import Tartaruga.LoadedPrograms
