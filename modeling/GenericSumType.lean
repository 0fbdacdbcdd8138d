import GenericSumType.Library.ArgumentCheck
import GenericSumType.Library.BlockHeap
import GenericSumType.Library.Brackets
import GenericSumType.Library.CString
import GenericSumType.Library.Checksum
import GenericSumType.Library.ErrorChain
import GenericSumType.Library.Footprint
import GenericSumType.Library.FormatReading
import GenericSumType.Library.FreeLedger
import GenericSumType.Library.KeyedList
import GenericSumType.Library.LastWrite
import GenericSumType.Library.LockModel
import GenericSumType.Library.LostUpdate
import GenericSumType.Library.MutexSerial
import GenericSumType.Library.Printf
import GenericSumType.Library.Scanf
import GenericSumType.Library.SignedInt
import GenericSumType.Library.StepMachine
import GenericSumType.Library.ThreadLocks
import GenericSumType.Library.Transcript
import GenericSumType.Header.CType
import GenericSumType.Header.Compatibility
import GenericSumType.Header.Execution
import GenericSumType.Header.Expansion
import GenericSumType.Header.GenericSelection
import GenericSumType.Header.Predicates
import GenericSumType.Header.Program
import GenericSumType.Header.Typing
import GenericSumType.Spec.Coproduct
import GenericSumType.Spec.DestroyAccount
import GenericSumType.Spec.FrameClassification
import GenericSumType.Spec.FrameDescription
import GenericSumType.Spec.LaserDevice
import GenericSumType.Spec.Prototypes
import GenericSumType.Spec.RecipeCatalogue
import GenericSumType.Spec.RecipeTranscript
import GenericSumType.Spec.RecordLife
import GenericSumType.Semantics.CommandLoop
import GenericSumType.Semantics.NestedDispatch
import GenericSumType.Semantics.SharedDispatch
import GenericSumType.Examples.CacheLookup
import GenericSumType.Examples.DestroyHarness
import GenericSumType.Examples.InternalCommand
import GenericSumType.Examples.MotorCommand
import GenericSumType.Examples.OrderProcessing
import GenericSumType.Examples.ProtocolChecksum
import GenericSumType.Examples.ProtocolFrame
import GenericSumType.Examples.ProtocolFrameDemo
import GenericSumType.Examples.RecipeCommand
import GenericSumType.Examples.ResourceDemo
import GenericSumType.Examples.ThreadsafeDispatchDemo
import GenericSumType.Proofs.Alignment
import GenericSumType.Proofs.CacheLookup
import GenericSumType.Proofs.CommandLoop
import GenericSumType.Proofs.ConstPlacement
import GenericSumType.Proofs.CoproductRefinement
import GenericSumType.Proofs.CounterOutcomes
import GenericSumType.Proofs.DestroyHarness
import GenericSumType.Proofs.FrameClassification
import GenericSumType.Proofs.FrameDescription
import GenericSumType.Proofs.GenericSelection
import GenericSumType.Proofs.LaserDevice
import GenericSumType.Proofs.LaserTranscript
import GenericSumType.Proofs.LockDiscipline
import GenericSumType.Proofs.MotorCommand
import GenericSumType.Proofs.NameHygiene
import GenericSumType.Proofs.NestedThreads
import GenericSumType.Proofs.OrderProcessing
import GenericSumType.Proofs.Predicates
import GenericSumType.Proofs.ProtocolChecksum
import GenericSumType.Proofs.Prototypes
import GenericSumType.Proofs.RawObjects
import GenericSumType.Proofs.RecipeOrder
import GenericSumType.Proofs.RecipeOutput
import GenericSumType.Proofs.RecipeStore
import GenericSumType.Proofs.RecipeTranscript
import GenericSumType.Proofs.RecordOwnership
import GenericSumType.Proofs.RequestConflation
import GenericSumType.Proofs.SharedCounter
import GenericSumType.Proofs.SharedDispatch
import GenericSumType.Proofs.UnlockedDispatch
