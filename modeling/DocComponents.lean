import DocComponents.Text.Alphabet
import DocComponents.Text.Capital
import DocComponents.Text.Lines
import DocComponents.Text.Quoted
import DocComponents.Text.Scan
import DocComponents.Definition.Basic
import DocComponents.Definition.FrontMatter
import DocComponents.Definition.Reader
import DocComponents.Invocation.Basic
import DocComponents.Invocation.Writer
import DocComponents.Style.Scope
import DocComponents.Data.Basic
import DocComponents.Data.Json
import DocComponents.Log
import DocComponents.Markup.Element
import DocComponents.Markup.Graph
import DocComponents.Render.Component
import DocComponents.SortedMap
import DocComponents.Text.Utf8
import DocComponents.File.Disk
import DocComponents.Catalog.Basic
import DocComponents.Catalog.Loading
import DocComponents.Document.CodeSpan
import DocComponents.Document.Fence
import DocComponents.Config.Settings
import DocComponents.Document.Expander
import DocComponents.Document.Service
import DocComponents.Toml.Scalar
import DocComponents.Toml.Reader
import DocComponents.Toml.Writer
import DocComponents.Config.Basic
import DocComponents.Config.Document
import DocComponents.Archive.Checksum
import DocComponents.Archive.Gzip
import DocComponents.Archive.Zip
import DocComponents.Workspace.Archiving
import DocComponents.Workspace.Initial
import DocComponents.Workspace.Loading
import DocComponents.Log.Journal
import DocComponents.Cli.Arguments
import DocComponents.Cli.Basic
import DocComponents.Cli.Components
import DocComponents.Cli.Initialising
import DocComponents.Cli.Run
import DocComponents.Cli.Reach
import DocComponents.Main
import DocComponents.Proofs.Text.Lead
import DocComponents.Proofs.Text.Trim
import DocComponents.Proofs.Text.Capital
import DocComponents.Proofs.SortedMap
import DocComponents.Proofs.Catalog.Claims
import DocComponents.Proofs.Catalog.Update
import DocComponents.Proofs.Render.Token
import DocComponents.Proofs.Style.Selectors
import DocComponents.Proofs.Style.Rescoping
import DocComponents.Proofs.Style.Splitting
import DocComponents.Proofs.Catalog.Reading
import DocComponents.Proofs.Catalog.History
import DocComponents.Proofs.File.Path
import DocComponents.Proofs.File.Scan
import DocComponents.Proofs.File.Place
import DocComponents.Proofs.File.Change
import DocComponents.Proofs.Catalog.Updates
import DocComponents.Proofs.Catalog.Located
import DocComponents.Proofs.Catalog.Refresh
import DocComponents.Proofs.Catalog.Restart
import DocComponents.Proofs.Catalog.Unambiguous
import DocComponents.Proofs.Catalog.Following
import DocComponents.Proofs.Catalog.Removal
import DocComponents.Proofs.Catalog.Overlap
import DocComponents.Proofs.Catalog.Filled
import DocComponents.Proofs.Text.Scan
import DocComponents.Proofs.Text.Replace
import DocComponents.Proofs.Text.Occurrences
import DocComponents.Proofs.Text.Lines
import DocComponents.Proofs.Text.LineEndings
import DocComponents.Proofs.Identifier
import DocComponents.Proofs.Props
import DocComponents.Proofs.Definition.Declared
import DocComponents.Proofs.Definition.FrontMatter
import DocComponents.Proofs.Definition.Rules
import DocComponents.Proofs.Definition.TagBlock
import DocComponents.Proofs.Definition.Block
import DocComponents.Proofs.Definition.Joined
import DocComponents.Proofs.Definition.Written
import DocComponents.Proofs.Definition.LineEndings
import DocComponents.Proofs.Invocation.Block
import DocComponents.Proofs.Invocation.Marker
import DocComponents.Proofs.Invocation.Spelled
import DocComponents.Proofs.Invocation.Written
import DocComponents.Proofs.Invocation.Inline
import DocComponents.Proofs.Invocation.Quotable
import DocComponents.Proofs.Invocation.Tiling
import DocComponents.Proofs.Invocation.Named
import DocComponents.Proofs.Document.Fences
import DocComponents.Proofs.Document.CodeSpan
import DocComponents.Proofs.Document.Runs
import DocComponents.Proofs.Document.Parts
import DocComponents.Proofs.Document.Snippet
import DocComponents.Proofs.Document.Answers
import DocComponents.Proofs.Document.Blind
import DocComponents.Proofs.Document.Serving
import DocComponents.Proofs.Document.OpenRuns
import DocComponents.Proofs.Document.LineEndings
import DocComponents.Proofs.Document.Direct
import DocComponents.Proofs.Document.Reach
import DocComponents.Proofs.Script.Layout
import DocComponents.Proofs.Script.Indentation
import DocComponents.Proofs.Markup.Delimiters
import DocComponents.Proofs.Markup.Entities
import DocComponents.Proofs.Markup.Shape
import DocComponents.Proofs.Render.Template
import DocComponents.Proofs.PropKey
import DocComponents.Proofs.Render.Structure
import DocComponents.Proofs.Data.JsonReader
import DocComponents.Proofs.Script.Hook
import DocComponents.Proofs.Script.Payload
import DocComponents.Proofs.Script.Effect
import DocComponents.Proofs.Render.Frame
import DocComponents.Proofs.Style.Segments
import DocComponents.Proofs.Style.Frame
import DocComponents.Proofs.Style.Nested
import DocComponents.Proofs.Style.Sheet
import DocComponents.Proofs.Style.Reading
import DocComponents.Proofs.Style.Carrying
import DocComponents.Proofs.Style.Quoted
import DocComponents.Proofs.Style.Unseen
import DocComponents.Proofs.Style.Attribute
import DocComponents.Proofs.Style.Comments
import DocComponents.Proofs.Style.Isolation
import DocComponents.Proofs.Style.Renaming
import DocComponents.Proofs.Render.Renaming
import DocComponents.Proofs.Text.Utf8
import DocComponents.Proofs.Toml.Written
import DocComponents.Proofs.Data.Table
import DocComponents.Proofs.Data.Layers
import DocComponents.Proofs.Config.Document
import DocComponents.Proofs.Config.Layers
import DocComponents.Proofs.Config.ReadBack
import DocComponents.Proofs.File.Action
import DocComponents.Proofs.File.Folder
import DocComponents.Proofs.Workspace.Initial
import DocComponents.Proofs.Workspace.Agreement
import DocComponents.Proofs.Workspace.Archiving
import DocComponents.Proofs.Workspace.Filling
import DocComponents.Proofs.Workspace.Keeping
import DocComponents.Proofs.Workspace.Level
import DocComponents.Proofs.Workspace.Loading
import DocComponents.Proofs.Workspace.Renewal
