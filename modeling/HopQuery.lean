import HopQuery.Catalog.Basic
import HopQuery.Catalog.Error
import HopQuery.Catalog.Listing
import HopQuery.Catalog.Reading
import HopQuery.Chain.Basic
import HopQuery.Chain.Choices
import HopQuery.Chain.Error
import HopQuery.Chain.Hop
import HopQuery.Chain.Path
import HopQuery.CommandLine.Arguments
import HopQuery.CommandLine.Outcome
import HopQuery.CommandLine.Run
import HopQuery.Decimal.Binary64
import HopQuery.Decimal.Shortest
import HopQuery.Json.Number
import HopQuery.Json.Value
import HopQuery.Json.Writer
import HopQuery.Json.Written
import HopQuery.Main
import HopQuery.Proofs.Catalog.Faults
import HopQuery.Proofs.Catalog.Listing
import HopQuery.Proofs.Catalog.Registering
import HopQuery.Proofs.Chain.Consistency
import HopQuery.Proofs.Chain.Edit
import HopQuery.Proofs.Chain.Listed
import HopQuery.Proofs.Chain.Locality
import HopQuery.Proofs.Chain.Path
import HopQuery.Proofs.Chain.Rearranging
import HopQuery.Proofs.Chain.Renaming
import HopQuery.Proofs.Chain.Stage
import HopQuery.Proofs.Chain.Stays
import HopQuery.Proofs.CommandLine.Accepted
import HopQuery.Proofs.CommandLine.Assignments
import HopQuery.Proofs.CommandLine.Building
import HopQuery.Proofs.CommandLine.Excludes
import HopQuery.Proofs.CommandLine.Filters
import HopQuery.Proofs.CommandLine.Settings
import HopQuery.Proofs.Decimal.Interval
import HopQuery.Proofs.Decimal.Text
import HopQuery.Proofs.Json.Alike
import HopQuery.Proofs.Json.Induction
import HopQuery.Proofs.Json.Parts
import HopQuery.Proofs.Json.Same
import HopQuery.Proofs.Json.Scalar
import HopQuery.Proofs.Json.Without
import HopQuery.Proofs.LastWrite
import HopQuery.Proofs.Outcome
import HopQuery.Proofs.Response
import HopQuery.Proofs.Rules
import HopQuery.Proofs.Rules.Layers
import HopQuery.Proofs.Selection.Grammar
import HopQuery.Proofs.Selection.Growing
import HopQuery.Proofs.Selection.Levels
import HopQuery.Proofs.Selection.Reading
import HopQuery.Proofs.Selection.Stages
import HopQuery.Proofs.Session.Agreement
import HopQuery.Proofs.Session.Change
import HopQuery.Proofs.Session.History
import HopQuery.Proofs.Session.InPlace
import HopQuery.Proofs.Session.Names
import HopQuery.Proofs.Session.Operation
import HopQuery.Proofs.Session.Refusals
import HopQuery.Proofs.Session.Renaming
import HopQuery.Proofs.Session.Script
import HopQuery.Proofs.Settings.Sources
import HopQuery.Proofs.Shape.Dedupe
import HopQuery.Proofs.Shape.Entries
import HopQuery.Proofs.Shape.Lines
import HopQuery.Proofs.Shape.Nested
import HopQuery.Proofs.Shape.Nulls
import HopQuery.Proofs.Shape.TypeMembers
import HopQuery.Proofs.Shape.Walk
import HopQuery.Proofs.Text.Literal
import HopQuery.Proofs.Text.Name
import HopQuery.Proofs.Text.Numeral
import HopQuery.Proofs.Text.Token
import HopQuery.Proofs.Yaml.Fields
import HopQuery.Response
import HopQuery.Rules
import HopQuery.Selection.Basic
import HopQuery.Selection.Query
import HopQuery.Session
import HopQuery.Settings.Assignments
import HopQuery.Settings.Basic
import HopQuery.Settings.Files
import HopQuery.Shape.Flat
import HopQuery.Shape.Mode
import HopQuery.Shape.Nested
import HopQuery.Shape.Render
import HopQuery.Table
import HopQuery.Text.Alphanumeric
import HopQuery.Text.Blank
import HopQuery.Text.Hex
import HopQuery.Text.Literal
import HopQuery.Text.Name
import HopQuery.Text.Numeral
import HopQuery.Yaml.Decode
import HopQuery.Yaml.Node
import HopQuery.Yaml.Scalar
import HopQuery.Yaml.Spot
import HopQuery.Yaml.Tag
import HopQuery.Yaml.Token
