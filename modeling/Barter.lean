import Barter.Main
import Barter.LogFilter.Filter
import Barter.Json.Writer
import Barter.Session.Run
import Barter.Proofs.Command
import Barter.Proofs.Sandbox.Operation
import Barter.Proofs.Sandbox.Run
import Barter.Proofs.Sandbox.Handling
import Barter.Proofs.Sandbox.Actions
import Barter.Proofs.Sandbox.Life
import Barter.Proofs.Sandbox.Accounting
import Barter.Proofs.Sandbox.Proportion
import Barter.Proofs.Book
import Barter.Proofs.Event
import Barter.Proofs.OrderId
import Barter.Proofs.Sandbox.Blocks
import Barter.Proofs.Client.Lookup
import Barter.Proofs.Client.Shared
import Barter.Proofs.Sandbox.Replay
import Barter.Proofs.Sandbox.WellFormed
import Barter.Proofs.Sandbox.Changes
import Barter.Proofs.Client.Absence
import Barter.Proofs.Client.Mirror
import Barter.Proofs.Amount.Price
import Barter.Proofs.Amount.Reciprocal
import Barter.Proofs.Client.Price
import Barter.Proofs.Amount.Numeral
import Barter.Proofs.Amount.Rounding
import Barter.Proofs.Amount.Reading
import Barter.Proofs.Amount.Text
import Barter.Proofs.Sandbox.Receipts
import Barter.Proofs.Sandbox.Creation
import Barter.Proofs.Sandbox.Queries
import Barter.Proofs.Client.Bumping
import Barter.Proofs.Client.Estimate
import Barter.Proofs.Client.Making
import Barter.Proofs.Client.Overheard
import Barter.Proofs.Client.Cache
import Barter.Proofs.Client.Listing
import Barter.Proofs.Sandbox.Aside
import Barter.Proofs.Sandbox.Deeds
import Barter.Proofs.Sandbox.Commuting
import Barter.Proofs.Sandbox.Window
import Barter.Proofs.Sandbox.Numbering
import Barter.Proofs.Sandbox.Channels
import Barter.Proofs.Client.Requests
import Barter.Proofs.Session.Conduct
import Barter.Proofs.Session.Delivery
import Barter.Proofs.Sandbox.Settings
import Barter.Proofs.Hint
import Barter.Proofs.Hint.Insertion
import Barter.Proofs.Hint.Resolution
import Barter.Proofs.Sandbox.Loading
import Barter.Proofs.Json.Lexeme
import Barter.Proofs.Json.RoundTrip
import Barter.Proofs.Json.Format
import Barter.Proofs.Json.Contract
import Barter.Proofs.Json.Market
import Barter.Proofs.CommandLine.Tasks
import Barter.Proofs.Sandbox.Admission
import Barter.Proofs.Sandbox.Taking
import Barter.Proofs.Client.Saturation
import Barter.Proofs.CommandLine.Amounts
