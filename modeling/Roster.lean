import Roster.Text
import Roster.Decimal
import Roster.Mismatch
import Roster.Json.Error
import Roster.Json.Literal
import Roster.Json.Number
import Roster.Json.Skip
import Roster.Json.Record
import Roster.Yaml.Error
import Roster.Yaml.Source
import Roster.Yaml.Token
import Roster.Yaml.Lexer
import Roster.Yaml.Document
import Roster.Yaml.Scalar
import Roster.Config
import Roster.ServiceError
import Roster.Step
import Roster.Config.File
import Roster.IdCounter
import Roster.Logger
import Roster.User
import Roster.Store
import Roster.Outline
import Roster.Proofs.Json.Text
import Roster.Proofs.Json.Number
import Roster.Proofs.Json.Skip
import Roster.Proofs.Json.Record
import Roster.Proofs.Json.Printer
import Roster.Proofs.Config.Json
import Roster.Proofs.Yaml.Scalars
import Roster.Proofs.Yaml.Lexer
import Roster.Proofs.Yaml.Objects
import Roster.Proofs.Config.Yaml
import Roster.Proofs.Config.File
import Roster.Proofs.Yaml.Block
import Roster.Proofs.Yaml.Lines
import Roster.Proofs.Config.Lines
import Roster.Proofs.Run
import Roster.Server
import Roster.Proofs.Handler.Refinement
import Roster.Proofs.Server.Clients
import Roster.Proofs.Handler.Listings
import Roster.Proofs.Json.Faults
import Roster.Proofs.Text
import Roster.Proofs.Outline
import Roster.User.Json
import Roster.Proofs.User
import Roster.Proofs.Records
import Roster.Role.Json
import Roster.Proofs.Role
import Roster.Proofs.RpcError
import Roster.Proofs.Server.Trace
import Roster.Proofs.Server.Issued
import Roster.Proofs.Sink
import Roster.Proofs.Server.Settings
import Roster.Proofs.Server.Output
import Roster.Proofs.Server.Validity
