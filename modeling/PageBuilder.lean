import PageBuilder.Action
import PageBuilder.Behavior
import PageBuilder.Binary64.Basic
import PageBuilder.Binary64.Shortest
import PageBuilder.Binary64.Text
import PageBuilder.Choice
import PageBuilder.ClassList
import PageBuilder.Command.Arguments
import PageBuilder.Command.Basic
import PageBuilder.Command.Failure
import PageBuilder.Command.Forms
import PageBuilder.Command.Help
import PageBuilder.Command.Program
import PageBuilder.Command.Run
import PageBuilder.Config
import PageBuilder.DataList
import PageBuilder.Entries
import PageBuilder.Export.Document
import PageBuilder.Export.Fragment
import PageBuilder.Export.Look
import PageBuilder.Files.Directory
import PageBuilder.Files.Path
import PageBuilder.Generation
import PageBuilder.Intent
import PageBuilder.Interpreter.Basic
import PageBuilder.Interpreter.Run
import PageBuilder.Json.Basic
import PageBuilder.Json.Printer
import PageBuilder.Json.Reader
import PageBuilder.Json.Record
import PageBuilder.Json.Source
import PageBuilder.Kind
import PageBuilder.ListItem
import PageBuilder.Main
import PageBuilder.Markup.Attribute
import PageBuilder.Markup.Escape
import PageBuilder.Markup.Line
import PageBuilder.Markup.Literal
import PageBuilder.Network
import PageBuilder.Node.Basic
import PageBuilder.Node.Edit
import PageBuilder.Node.Relabel
import PageBuilder.Node.Text
import PageBuilder.Node.Walk
import PageBuilder.Node.Wire
import PageBuilder.Project.Basic
import PageBuilder.Project.Calendar
import PageBuilder.Project.Store
import PageBuilder.Proofs.Behavior.Stable
import PageBuilder.Proofs.Binary64.Rounding
import PageBuilder.Proofs.Binary64.Shortest
import PageBuilder.Proofs.ClassList.Replace
import PageBuilder.Proofs.Command.Program
import PageBuilder.Proofs.Command.ReadBack
import PageBuilder.Proofs.DataList.Search
import PageBuilder.Proofs.DataList.Visible
import PageBuilder.Proofs.Export.Balance
import PageBuilder.Proofs.Export.Block
import PageBuilder.Proofs.Export.Distinct
import PageBuilder.Proofs.Export.Layout
import PageBuilder.Proofs.Export.Outline
import PageBuilder.Proofs.Export.Printed
import PageBuilder.Proofs.Intent.Identity
import PageBuilder.Proofs.Intent.Legible
import PageBuilder.Proofs.Intent.Merge
import PageBuilder.Proofs.Intent.Origin
import PageBuilder.Proofs.Intent.Outcome
import PageBuilder.Proofs.Intent.Reserved
import PageBuilder.Proofs.Intent.Shape
import PageBuilder.Proofs.Intent.Stable
import PageBuilder.Proofs.Interpreter.Writes
import PageBuilder.Proofs.Json.Faithful
import PageBuilder.Proofs.Json.Legible
import PageBuilder.Proofs.Json.Numeral
import PageBuilder.Proofs.Json.Overflow
import PageBuilder.Proofs.Json.Proper
import PageBuilder.Proofs.Json.ReadBack
import PageBuilder.Proofs.Json.Same
import PageBuilder.Proofs.Json.Spelling
import PageBuilder.Proofs.Json.Strings
import PageBuilder.Proofs.Json.Tokens
import PageBuilder.Proofs.Markup.AttributeName
import PageBuilder.Proofs.Markup.DoubleQuoted
import PageBuilder.Proofs.Markup.Escape
import PageBuilder.Proofs.Markup.Literal
import PageBuilder.Proofs.Markup.Nesting
import PageBuilder.Proofs.Markup.Reference
import PageBuilder.Proofs.Markup.Script
import PageBuilder.Proofs.Markup.Signs
import PageBuilder.Proofs.Node.Copy
import PageBuilder.Proofs.Node.Damage
import PageBuilder.Proofs.Node.Independence
import PageBuilder.Proofs.Node.Lineage
import PageBuilder.Proofs.Node.Locality
import PageBuilder.Proofs.Node.Operation
import PageBuilder.Proofs.Node.Parent
import PageBuilder.Proofs.Node.Place
import PageBuilder.Proofs.Node.Position
import PageBuilder.Proofs.Node.ReadBack
import PageBuilder.Proofs.Node.Relabel
import PageBuilder.Proofs.Node.RoundTrip
import PageBuilder.Proofs.Node.Text
import PageBuilder.Proofs.Node.Tidy
import PageBuilder.Proofs.Node.Traversal
import PageBuilder.Proofs.Project.Store
import PageBuilder.Proofs.Props.Merge
import PageBuilder.Proofs.Props.Order
import PageBuilder.Proofs.Props.Recovery
import PageBuilder.Proofs.Props.Rows
import PageBuilder.Proofs.Props.Stable
import PageBuilder.Proofs.Session.Broadcast
import PageBuilder.Proofs.Session.Fill
import PageBuilder.Proofs.Session.Inbox
import PageBuilder.Proofs.Session.Room
import PageBuilder.Proofs.Session.Selection
import PageBuilder.Proofs.Sync.Delivery
import PageBuilder.Proofs.Sync.Hub
import PageBuilder.Proofs.Template.Instance
import PageBuilder.Proofs.Text.Lowercase
import PageBuilder.Proofs.Text.Words
import PageBuilder.Proofs.Variables.Handle
import PageBuilder.Proofs.Variables.History
import PageBuilder.Proofs.Variables.Text
import PageBuilder.Proofs.View.Design
import PageBuilder.Proofs.View.Dispatch
import PageBuilder.Proofs.View.Drawn
import PageBuilder.Proofs.View.Reads
import PageBuilder.Props.Basic
import PageBuilder.Props.Format
import PageBuilder.Props.Palette
import PageBuilder.Session.Basic
import PageBuilder.Session.Room
import PageBuilder.Sync.Hub
import PageBuilder.Sync.Message
import PageBuilder.Sync.Reaction
import PageBuilder.Sync.Recording
import PageBuilder.Template.Basic
import PageBuilder.Template.Builtin
import PageBuilder.Text.Blank
import PageBuilder.Text.CharacterSet
import PageBuilder.Text.Column
import PageBuilder.Text.Digit
import PageBuilder.Text.Letter
import PageBuilder.Text.Lowercase
import PageBuilder.Text.Split
import PageBuilder.Text.WordCharacter
import PageBuilder.Toml.Line
import PageBuilder.Toml.Number
import PageBuilder.Toml.Reader
import PageBuilder.Toml.Table
import PageBuilder.Value
import PageBuilder.Variables.Basic
import PageBuilder.Variables.Handle
import PageBuilder.Variables.Text
import PageBuilder.View.Basic
import PageBuilder.View.Outline
import PageBuilder.View.Render
