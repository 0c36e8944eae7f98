import ArcravenUgv.Lib.Runs
import ArcravenUgv.Lib.Fair
import ArcravenUgv.Lib.Mutex
import ArcravenUgv.Lib.MutexFair
import ArcravenUgv.Lib.Quiescent
import ArcravenUgv.Lib.Ranked
import ArcravenUgv.Lib.Simulation
import ArcravenUgv.Lib.Sections
import ArcravenUgv.Lib.Pacing
import ArcravenUgv.Lib.Delimited
import ArcravenUgv.Lib.Decimal
import ArcravenUgv.Lib.Radix64
import ArcravenUgv.Lib.Utf8
import ArcravenUgv.Lib.ShiftRegister
import ArcravenUgv.Lib.BitPolynomial
import ArcravenUgv.Lib.LittleEndian
import ArcravenUgv.Models.Enums
import ArcravenUgv.Command.Types
import ArcravenUgv.Command.Router
import ArcravenUgv.Command.RouterRuns
import ArcravenUgv.Command.Expiry
import ArcravenUgv.Core.StateStore
import ArcravenUgv.Utils.Base64
import ArcravenUgv.Utils.Canonical
import ArcravenUgv.Utils.Logger
import ArcravenUgv.Utils.LogLines
import ArcravenUgv.Subsystems.CommandLine
import ArcravenUgv.Subsystems.Bridge
import ArcravenUgv.Subsystems.Grammar
import ArcravenUgv.Subsystems.CorruptLines
import ArcravenUgv.Rust.Transport
import ArcravenUgv.Rust.Senders
import ArcravenUgv.Rust.Text
import ArcravenUgv.Rust.Records
import ArcravenUgv.Rust.RoundTrip
import ArcravenUgv.Rust.Drain
import ArcravenUgv.Rust.Polling
import ArcravenUgv.Rust.Tailing
import ArcravenUgv.Rust.Results
import ArcravenUgv.Rust.BadLines
import ArcravenUgv.Rust.Payloads
import ArcravenUgv.Core.Safety
import ArcravenUgv.Core.Latching
import ArcravenUgv.Core.SaveFaults
import ArcravenUgv.Core.StateFile
import ArcravenUgv.Core.Crc
import ArcravenUgv.Config.Handlers
import ArcravenUgv.Config.Runtime
import ArcravenUgv.Config.Moves
import ArcravenUgv.Config.Boot
import ArcravenUgv.Config.Lockout
import ArcravenUgv.Config.EStopRun
import ArcravenUgv.Config.PersistRace
import ArcravenUgv.Config.ReadLines
import ArcravenUgv.Config.OneClient
import ArcravenUgv.Config.Intake
import ArcravenUgv.Config.Acknowledge
import ArcravenUgv.Config.Lifetimes
import ArcravenUgv.Config.Locks
import ArcravenUgv.Config.SelfLock
import ArcravenUgv.Config.Drives
import ArcravenUgv.Config.Verdicts
import ArcravenUgv.Config.Shutdown
import ArcravenUgv.Config.Terminates
import ArcravenUgv.Config.Obeyed
import ArcravenUgv.Config.HeldUp
import ArcravenUgv.Config.Paced
import ArcravenUgv.Config.StopWait
import ArcravenUgv.Config.Answered
import ArcravenUgv.Config.AfterRun
import ArcravenUgv.System.Observer
import ArcravenUgv.System.EndToEnd
import ArcravenUgv.System.Settles
