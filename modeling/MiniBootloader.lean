import MiniBootloader.DigestGate
import MiniBootloader.Boot
import MiniBootloader.VerifiedExecution
import MiniBootloader.ImageFormat
import MiniBootloader.Contracts
import MiniBootloader.LoadRegion
import MiniBootloader.SlotFallback
import MiniBootloader.StrandedDevices
import MiniBootloader.PartitionFormat
import MiniBootloader.SlotExtent
import MiniBootloader.CheckedBytes
import MiniBootloader.WriteFrame
import MiniBootloader.Library.Probation
import MiniBootloader.Library.Runs
import MiniBootloader.BootAttempts
import MiniBootloader.PanicCount
import MiniBootloader.PickSpec
import MiniBootloader.Library.Overlay
import MiniBootloader.WalkFailure
import MiniBootloader.LoadMemory
import MiniBootloader.WalkAgreement
import MiniBootloader.PartitionLookup
import MiniBootloader.CheckedArithmetic
import MiniBootloader.UptimeCarry
import MiniBootloader.Library.PolledQueue
import MiniBootloader.Uart
import MiniBootloader.Library.Numerals
import MiniBootloader.CrashdumpReport
import MiniBootloader.Library.Effectful
import MiniBootloader.ConsoleText
import MiniBootloader.BootSequence
import MiniBootloader.BootRefinement
import MiniBootloader.HandOff
import MiniBootloader.ConsoleLog
import MiniBootloader.Library.Updates
import MiniBootloader.InstalledImages
import MiniBootloader.SlotUpdates
import MiniBootloader.PanicReport
import MiniBootloader.Library.CacheHierarchy
import MiniBootloader.InstructionFetch
import MiniBootloader.Library.ErasableCells
import MiniBootloader.FlashWrites
import MiniBootloader.Library.LostSteps
import MiniBootloader.StoreFailures
import MiniBootloader.HaltReasons
import MiniBootloader.Library.BoundedLog
import MiniBootloader.HistoryReport
import MiniBootloader.Noninterference
import MiniBootloader.Library.Costs
import MiniBootloader.ReadBudget
