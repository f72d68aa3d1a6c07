import ScriptServer.Block
import ScriptServer.Completion.Candidate
import ScriptServer.Completion.Context
import ScriptServer.Database.Json
import ScriptServer.Database.Query
import ScriptServer.Database.Table
import ScriptServer.Declaration.Assignment
import ScriptServer.Declaration.Finding
import ScriptServer.Declaration.Header
import ScriptServer.Disk.Basic
import ScriptServer.DocComment
import ScriptServer.Domain.Allowed
import ScriptServer.Domain.Composition
import ScriptServer.Domain.Direction
import ScriptServer.Domain.Joining
import ScriptServer.Domain.Mapping
import ScriptServer.Domain.MarkClass
import ScriptServer.Domain.Name
import ScriptServer.Domain.NormalForm
import ScriptServer.Domain.Punycode
import ScriptServer.Json.Basic
import ScriptServer.Json.Reader
import ScriptServer.Json.Record
import ScriptServer.Json.Shape
import ScriptServer.Json.Writer
import ScriptServer.Library.Entry
import ScriptServer.Library.Index
import ScriptServer.Library.Register
import ScriptServer.Library.Scan
import ScriptServer.Library.Walk
import ScriptServer.Lookup
import ScriptServer.Metadata.Basic
import ScriptServer.Metadata.Overview
import ScriptServer.Metadata.Slot
import ScriptServer.ModuleSyntax
import ScriptServer.Outline
import ScriptServer.Path
import ScriptServer.Position
import ScriptServer.Proofs.Block
import ScriptServer.Proofs.Declaration
import ScriptServer.Proofs.Disk
import ScriptServer.Proofs.Innermost
import ScriptServer.Proofs.Library.Refinement
import ScriptServer.Proofs.Library.Rescan
import ScriptServer.Proofs.Library.Scan
import ScriptServer.Proofs.Noninterference
import ScriptServer.Proofs.Path
import ScriptServer.Proofs.Server.Documents
import ScriptServer.Proofs.Server.Run
import ScriptServer.Proofs.Source
import ScriptServer.Proofs.Text.Column
import ScriptServer.Proofs.Text.Mask
import ScriptServer.Proofs.Text.Trim
import ScriptServer.Protocol.Capabilities
import ScriptServer.Protocol.Message
import ScriptServer.Protocol.Results
import ScriptServer.Protocol.Shapes
import ScriptServer.Protocol.Unserved
import ScriptServer.Server.Basic
import ScriptServer.Server.Receive
import ScriptServer.Settings
import ScriptServer.Source
import ScriptServer.Sql.Clause
import ScriptServer.Sql.Keyword
import ScriptServer.Store
import ScriptServer.Symbol
import ScriptServer.Text.CharClass
import ScriptServer.Text.CharClass.Alphabetic
import ScriptServer.Text.CharClass.Mark
import ScriptServer.Text.CharClass.Number
import ScriptServer.Text.Line
import ScriptServer.Text.Mask
import ScriptServer.Text.Search
import ScriptServer.Token
import ScriptServer.Uri.Address
import ScriptServer.Uri.Basic
import ScriptServer.Uri.FilePath
import ScriptServer.Uri.Host
import ScriptServer.Uri.Parser
import ScriptServer.Uri.Segment
import ScriptServer.Watch
import ScriptServer.Workspace.Basic
import ScriptServer.Workspace.Completion
import ScriptServer.Workspace.Diagnostics
import ScriptServer.Workspace.Symbols
import ScriptServer.Proofs.Body
import ScriptServer.Proofs.Visibility
import ScriptServer.Proofs.Shadowing
import ScriptServer.Proofs.Text.Projection
import ScriptServer.Proofs.Text.Region
import ScriptServer.Proofs.Text.RoundTrip
import ScriptServer.Proofs.Place
import ScriptServer.Proofs.Header
import ScriptServer.Proofs.Recovery
import ScriptServer.Proofs.Metadata.Gate
import ScriptServer.Proofs.Metadata.KeyState
import ScriptServer.Proofs.Metadata.SingleFlight
import ScriptServer.Proofs.Metadata.Session
import ScriptServer.Proofs.Metadata.Refresh
import ScriptServer.Proofs.Metadata.Throttle
import ScriptServer.Proofs.Metadata.Conclusion
import ScriptServer.Proofs.Metadata.LeadingEdge
import ScriptServer.Proofs.Imports
import ScriptServer.Proofs.Server.Modules
import ScriptServer.Proofs.Server.Published
import ScriptServer.Proofs.Uri.FilePath
import ScriptServer.Proofs.Library.Changes
import ScriptServer.Proofs.Workspace.Run
import ScriptServer.Proofs.Workspace.Tables
import ScriptServer.Proofs.Workspace.InStep
import ScriptServer.Proofs.Workspace.Closing
import ScriptServer.Proofs.Library.Hidden
import ScriptServer.Proofs.Completion.Comment
import ScriptServer.Proofs.Completion.Import
import ScriptServer.Proofs.Completion.Offer
import ScriptServer.Proofs.BodySearch
import ScriptServer.Proofs.Completion.PathLevel
import ScriptServer.Proofs.Completion.Statement
import ScriptServer.Proofs.Completion.LineBreak
import ScriptServer.Proofs.Assignment
import ScriptServer.Proofs.NameOrder
import ScriptServer.Proofs.SharedBody
import ScriptServer.Proofs.Variables
import ScriptServer.Proofs.Resolution
import ScriptServer.Proofs.ParameterPlaces
import ScriptServer.Proofs.Survivors
import ScriptServer.Proofs.Token
import ScriptServer.Proofs.Workspace.Exports
import ScriptServer.Proofs.Library.Breadth
import ScriptServer.Proofs.Library.Patch
import ScriptServer.Proofs.Metadata.Interval
import ScriptServer.Proofs.CanonicalPath
import ScriptServer.Proofs.DocComment
import ScriptServer.Proofs.Text.Bytes
import ScriptServer.Proofs.Text.Slice
import ScriptServer.Proofs.MatchOffsets
import ScriptServer.Proofs.NamePlaces
import ScriptServer.Proofs.Library.Register
