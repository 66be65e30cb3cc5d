import Countersign.Binding.Address
import Countersign.Binding.Memory
import Countersign.Binding.Shared
import Countersign.Failure
import Countersign.Gate
import Countersign.Settings.Basic
import Countersign.Signer
import Countersign.Token.Registry
import Countersign.Proofs.Text.Blank
import Countersign.Proofs.Text.Decimal
import Countersign.Proofs.Encoding.Base64
import Countersign.Proofs.Http.Header
import Countersign.Proofs.Policy.HeaderNames
import Countersign.Proofs.Rsa.Signature
import Countersign.Proofs.Account.Signature
import Countersign.Proofs.Outcome
import Countersign.Proofs.Verifier.Checks
import Countersign.Proofs.Signer
import Countersign.Proofs.Verifier.Signed
import Countersign.Proofs.Text.Separator
import Countersign.Proofs.Canonical.DigestForm
import Countersign.Proofs.Verifier.Tampering
import Countersign.Proofs.Nonce.Ledger
import Countersign.Proofs.Verifier.Run
import Countersign.Proofs.Verifier.Replay
import Countersign.Proofs.Verifier.Isolation
import Countersign.Proofs.Token.History
import Countersign.Proofs.Token.Mint
import Countersign.Proofs.Token.Registry
import Countersign.Proofs.Token.Accounting
import Countersign.Proofs.Token.Usability
import Countersign.Proofs.Token.Written
import Countersign.Proofs.Verifier.Acceptance
import Countersign.Proofs.Canonical.LinesForm
import Countersign.Proofs.Verifier.SignedLines
import Countersign.Proofs.Canonical.Parameters
import Countersign.Proofs.Canonical.Order
import Countersign.Proofs.Canonical.Rearranged
import Countersign.Proofs.Canonical.Spelling
import Countersign.Proofs.Binding.Clients
import Countersign.Proofs.Binding.Overtaken
import Countersign.Proofs.Binding.Memory
import Countersign.Proofs.Binding.Answers
import Countersign.Proofs.Binding.Mirror
import Countersign.Proofs.Binding.Agreement
import Countersign.Proofs.Gate.Echo
import Countersign.Proofs.Gate.Passage
import Countersign.Proofs.Gate.Rejection
import Countersign.Proofs.Account.Accepted
import Countersign.Proofs.Verifier.ReadBack
import Countersign.Proofs.Signer.InPlace
import Countersign.Proofs.Nonce.History
import Countersign.Proofs.Verifier.Timestamp
import Countersign.Proofs.Policy.AllowList
import Countersign.Proofs.Json.Fields
import Countersign.Proofs.Token.Contents
import Countersign.Proofs.Token.Parsing
import Countersign.Proofs.Json.Scalars
import Countersign.Proofs.Json.ReadBack
import Countersign.Proofs.Json.Values
import Countersign.Proofs.Token.UserText
import Countersign.Proofs.Token.ReadBack
import Countersign.Proofs.Binding.Faults
import Countersign.Proofs.Token.FailClosed
import Countersign.Proofs.Binding.History
import Countersign.Proofs.Account.Directory
import Countersign.Proofs.Text.Damage
import Countersign.Proofs.Verifier.SignedBody
import Countersign.Proofs.Binding.Sequential
import Countersign.Proofs.Settings.Fields
import Countersign.Proofs.Settings.Variables
import Countersign.Proofs.Settings.Layers
import Countersign.Proofs.Time.Words
import Countersign.Proofs.Time.Manual
import Countersign.Proofs.Binding.Seconds
import Countersign.Proofs.Token.Expiry
import Countersign.Proofs.Policy.Stems
import Countersign.Proofs.Verifier.Interoperation
