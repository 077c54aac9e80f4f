import EthGateway.Record
import EthGateway.Text
import EthGateway.Json.Numeral
import EthGateway.Json.Basic
import EthGateway.Json.Token
import EthGateway.Json.Node
import EthGateway.Json.Reader
import EthGateway.Json.Writer
import EthGateway.Notice
import EthGateway.Quantity
import EthGateway.Address
import EthGateway.Catalog
import EthGateway.Formatter
import EthGateway.Pipeline.Layer
import EthGateway.Tester
import EthGateway.Admin
import EthGateway.Http.Transport
import EthGateway.Server.Dispatch
import EthGateway.Main
import EthGateway.Proofs.Record.Lookup
import EthGateway.Proofs.Record.Renaming
import EthGateway.Proofs.Record.Collision
import EthGateway.Proofs.Record.Inversion
import EthGateway.Proofs.Formatter.Fields
import EthGateway.Proofs.Formatter.Schema
import EthGateway.Proofs.Formatter.Settling
import EthGateway.Proofs.Quantity.Spelling
import EthGateway.Proofs.Normalization.Stability
import EthGateway.Proofs.Catalog.Loading
import EthGateway.Proofs.Catalog.Entries
import EthGateway.Proofs.Catalog.Growth
import EthGateway.Proofs.Formatter.Coverage
import EthGateway.Proofs.Pipeline.Run
import EthGateway.Proofs.Pipeline.Filling
import EthGateway.Proofs.Pipeline.Sending
import EthGateway.Proofs.Pipeline.Discipline
import EthGateway.Proofs.Tester.Arguments
import EthGateway.Proofs.Tester.Results
import EthGateway.Proofs.Tester.Spelling
import EthGateway.Proofs.Gateway.Layout
import EthGateway.Proofs.Gateway.Prenormalized
import EthGateway.Proofs.Gateway.Spelling
import EthGateway.Proofs.Gateway.EstimateLookup
import EthGateway.Proofs.Gateway.TesterBoundary
import EthGateway.Proofs.Gateway.Results
import EthGateway.Proofs.Pipeline.Nesting
import EthGateway.Proofs.Gateway.Names
import EthGateway.Proofs.Formatter.Notices
import EthGateway.Proofs.Pipeline.Reporting
import EthGateway.Proofs.Gateway.Relay
import EthGateway.Proofs.Pipeline.Repetition
import EthGateway.Proofs.Tester.Repetition
import EthGateway.Proofs.Pipeline.Transmission
import EthGateway.Proofs.Pipeline.Protocol
import EthGateway.Proofs.Config.Settings
import EthGateway.Proofs.Gateway.GasLimit
import EthGateway.Proofs.Record.Precedence
import EthGateway.Proofs.Formatter.Restoration
import EthGateway.Proofs.Normalization.Composition
import EthGateway.Proofs.Quantity.Grammar
import EthGateway.Proofs.Quantity.RoundTrip
import EthGateway.Proofs.Text.LetterCase
import EthGateway.Proofs.Normalization.Bytes
import EthGateway.Proofs.Normalization.Text
import EthGateway.Proofs.Normalization.Address
import EthGateway.Proofs.Kind.Names
import EthGateway.Proofs.Record.Bijection
import EthGateway.Proofs.Gateway.Registration
import EthGateway.Proofs.Text.Unsigned
import EthGateway.Proofs.Config.Faults
import EthGateway.Proofs.Http.Responses
