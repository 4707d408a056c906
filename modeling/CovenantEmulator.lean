import CovenantEmulator.Golang.Outcome
import CovenantEmulator.Golang.Hex
import CovenantEmulator.Golang.Json
import CovenantEmulator.Golang.Text
import CovenantEmulator.Golang.Relate
import CovenantEmulator.Golang.Retry
import CovenantEmulator.Golang.Slice
import CovenantEmulator.Golang.Resumption
import CovenantEmulator.Bitcoin
import CovenantEmulator.Bitcoin.Table
import CovenantEmulator.Types
import CovenantEmulator.ClientController.Responses
import CovenantEmulator.Paging.Store
import CovenantEmulator.ClientController.Query
import CovenantEmulator.ClientController.QueryTotal
import CovenantEmulator.ClientController.QueryFilter
import CovenantEmulator.ClientController.Send
import CovenantEmulator.ClientController.SendLost
import CovenantEmulator.ClientController.Resend
import CovenantEmulator.ClientController.Babylon
import CovenantEmulator.Covenant.Cache
import CovenantEmulator.Covenant.CacheRuns
import CovenantEmulator.Covenant.Checks
import CovenantEmulator.Covenant.Emulator
import CovenantEmulator.Config
import CovenantEmulator.Covenant.Accepted
import CovenantEmulator.Covenant.Approved
import CovenantEmulator.Covenant.Tick
import CovenantEmulator.Covenant.Pending
import CovenantEmulator.Covenant.StakeExpansion
import CovenantEmulator.Covenant.Panics
import CovenantEmulator.Covenant.Batching
import CovenantEmulator.Covenant.Resigning
import CovenantEmulator.Signer.App
import CovenantEmulator.Signer.Keyring
import CovenantEmulator.Signer.Wire
import CovenantEmulator.Signer.Service
import CovenantEmulator.Signer.Remote
import CovenantEmulator.Signer.Refinement
import CovenantEmulator.Covenant.EndToEnd
import CovenantEmulator.Covenant.Pairing
import CovenantEmulator.Sample
import CovenantEmulator.Sample.Remote
import CovenantEmulator.Signer.Requests
import CovenantEmulator.Signer.Auth
import CovenantEmulator.Signer.KeyRace
import CovenantEmulator.Covenant.Acceptance
import CovenantEmulator.Covenant.Isolation
import CovenantEmulator.Covenant.Splitting
import CovenantEmulator.Covenant.SpendingRules
import CovenantEmulator.Golang.Numeral
import CovenantEmulator.ClientController.MessageIndex
import CovenantEmulator.Signer.Derivation
import CovenantEmulator.Signer.Reencoding
import CovenantEmulator.Covenant.Quorum
import CovenantEmulator.Paging.Verdicts
import CovenantEmulator.ClientController.QueryPages
import CovenantEmulator.Signer.UnlockStatus
import CovenantEmulator.Covenant.Skips
import CovenantEmulator.Covenant.Failures
import CovenantEmulator.Covenant.Widths
import CovenantEmulator.Ledger.BestEffort
import CovenantEmulator.ClientController.AtomicChain
import CovenantEmulator.Backlog.Rounds
import CovenantEmulator.Covenant.Serving
import CovenantEmulator.Covenant.Progress
import CovenantEmulator.Covenant.SigningChain
import CovenantEmulator.Transition.Runs
import CovenantEmulator.Covenant.Daemon
import CovenantEmulator.Covenant.Deployment
import CovenantEmulator.Covenant.DaemonSafety
import CovenantEmulator.Covenant.Shutdown
import CovenantEmulator.Signer.Session
import CovenantEmulator.Backlog.Shared
import CovenantEmulator.Covenant.Growth
import CovenantEmulator.Covenant.Committee
