import StackFlow.App
import StackFlow.Banner
import StackFlow.Batch
import StackFlow.Cipher.Aead
import StackFlow.Cipher.ChaCha20
import StackFlow.Cipher.Poly1305
import StackFlow.Command.Flags
import StackFlow.Command.Run
import StackFlow.Command.Suggest
import StackFlow.Config
import StackFlow.Contract
import StackFlow.Digest.Sha3
import StackFlow.Engine
import StackFlow.Env
import StackFlow.ErrorKind
import StackFlow.Event
import StackFlow.Files
import StackFlow.Flow
import StackFlow.Graph.Basic
import StackFlow.Graph.Build
import StackFlow.Graph.Flatten
import StackFlow.Graph.Mermaid
import StackFlow.Graph.Validate
import StackFlow.Http.Api
import StackFlow.Http.Query
import StackFlow.Http.Route
import StackFlow.Item.Basic
import StackFlow.Item.OfValue
import StackFlow.Item.Printer
import StackFlow.Item.Reduce
import StackFlow.Json.Decode
import StackFlow.Json.Display
import StackFlow.Json.Number
import StackFlow.Json.Reader
import StackFlow.Json.Value
import StackFlow.Json.Writer
import StackFlow.Library
import StackFlow.Lock.Lease
import StackFlow.Lock.Table
import StackFlow.Log
import StackFlow.Lru
import StackFlow.Main
import StackFlow.Manager
import StackFlow.Mcp
import StackFlow.Metrics
import StackFlow.Micheline.Canonical
import StackFlow.Micheline.Decode
import StackFlow.Micheline.Expr
import StackFlow.Micheline.Instruction
import StackFlow.Micheline.Node
import StackFlow.Micheline.Sugar
import StackFlow.Proofs.Actions
import StackFlow.Proofs.Breakage
import StackFlow.Proofs.Canonical
import StackFlow.Proofs.Chart
import StackFlow.Proofs.Compilation
import StackFlow.Proofs.Courses
import StackFlow.Proofs.Cursors
import StackFlow.Proofs.Direct
import StackFlow.Proofs.Flatten
import StackFlow.Proofs.Flow
import StackFlow.Proofs.Joints
import StackFlow.Proofs.Layout
import StackFlow.Proofs.Positions
import StackFlow.Proofs.Refinement
import StackFlow.Proofs.ReportKey
import StackFlow.Proofs.Rules
import StackFlow.Proofs.Settled
import StackFlow.Proofs.TypeText
import StackFlow.Proofs.Valve
import StackFlow.Proofs.Walks
import StackFlow.Proofs.Words
import StackFlow.Proofs.Writing
import StackFlow.Regex.Automaton
import StackFlow.Regex.Basic
import StackFlow.Regex.Parser
import StackFlow.Regex.Property
import StackFlow.Report.Basic
import StackFlow.Report.Decode
import StackFlow.Report.Markdown
import StackFlow.Repository.Basic
import StackFlow.Repository.Directory
import StackFlow.Repository.Document
import StackFlow.Semantics.Joint
import StackFlow.Semantics.Known
import StackFlow.Semantics.Rule
import StackFlow.Stack
import StackFlow.Store.Basic
import StackFlow.Store.Error
import StackFlow.Store.Indexed
import StackFlow.Store.Key
import StackFlow.Store.Masking
import StackFlow.Store.Memory
import StackFlow.Store.Sealing
import StackFlow.Store.Server
import StackFlow.Stream
import StackFlow.Text.Base64
import StackFlow.Text.Binary64
import StackFlow.Text.Blank
import StackFlow.Text.Category
import StackFlow.Text.CodeSet
import StackFlow.Text.Decimal
import StackFlow.Text.Duration
import StackFlow.Text.Fold
import StackFlow.Text.Hex
import StackFlow.Text.IntLiteral
import StackFlow.Text.LetterCase
import StackFlow.Text.Moment
import StackFlow.Text.Printable
import StackFlow.Text.Quoted
import StackFlow.Text.Script
import StackFlow.Text.Utf8
import StackFlow.Trail
import StackFlow.Ty
import StackFlow.Valve
import StackFlow.Version
import StackFlow.Yaml.Data
import StackFlow.Yaml.Decode
import StackFlow.Yaml.Document
import StackFlow.Yaml.Folding
import StackFlow.Yaml.Node
import StackFlow.Yaml.Scalar
import StackFlow.Yaml.Source
import StackFlow.Yaml.Token
import StackFlow.Yaml.Token.Reader
import StackFlow.Yaml.Walk
import StackFlow.Proofs.History
import StackFlow.Proofs.Balance
import StackFlow.Proofs.Blocks
import StackFlow.Proofs.Shelter
import StackFlow.Proofs.Protection
import StackFlow.Proofs.Limits
import StackFlow.Proofs.Regions
import StackFlow.Proofs.Depths
import StackFlow.Proofs.WellFormed
import StackFlow.Proofs.Locks
import StackFlow.Proofs.Sessions
import StackFlow.Proofs.SingleFlight
import StackFlow.Proofs.Reading
import StackFlow.Proofs.Moments
import StackFlow.Proofs.Reports
import StackFlow.Proofs.Commands
import StackFlow.Proofs.ReportMap
import StackFlow.Proofs.ServerStore
import StackFlow.Proofs.Leases
import StackFlow.Proofs.LeaseReturn
import StackFlow.Proofs.Batch
import StackFlow.Proofs.Bytes
import StackFlow.Proofs.Cipher
import StackFlow.Proofs.Rotation
import StackFlow.Proofs.GraphCache
import StackFlow.Proofs.Origins
import StackFlow.Proofs.Parting
import StackFlow.Proofs.Trails
import StackFlow.Proofs.Coherence
import StackFlow.Proofs.Outlines
import StackFlow.Proofs.Environment
import StackFlow.Proofs.Verdicts
import StackFlow.Proofs.Stretches
import StackFlow.Proofs.Locality
import StackFlow.Proofs.Operands
import StackFlow.Proofs.Bottom
import StackFlow.Proofs.Finishing
import StackFlow.Proofs.Blindness
import StackFlow.Proofs.Numerals
import StackFlow.Proofs.Projections
import StackFlow.Proofs.NormalForms
import StackFlow.Proofs.Combs
import StackFlow.Proofs.Encoding
import StackFlow.Proofs.Damage
import StackFlow.Proofs.Formulas
import StackFlow.Proofs.TrailText
import StackFlow.Proofs.Listing
import StackFlow.Proofs.Search
import StackFlow.Proofs.Inlets
import StackFlow.Proofs.Drawing
import StackFlow.Proofs.Returns
import StackFlow.Proofs.Splices
import StackFlow.Proofs.Sweeps
