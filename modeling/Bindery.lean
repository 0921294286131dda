import Bindery.Text.Blank
import Bindery.Text.Case
import Bindery.Text.Split
import Bindery.OrderedMap
import Bindery.SortedMap
import Bindery.Document.Reading
import Bindery.Json.Printer
import Bindery.Json.Reader
import Bindery.Toml.Reader
import Bindery.Spec.Json
import Bindery.Spec.Reading
import Bindery.Resolution.Basic
import Bindery.Coverage
import Bindery.Validation
import Bindery.Target.Registry
import Bindery.Machine.Script
import Bindery.Config
import Bindery.Report.Reading
import Bindery.Generation
import Bindery.Command.Basic
import Bindery.Main
import Bindery.Proofs.Spec.TypeExpr
import Bindery.Proofs.Validation.Collisions
import Bindery.Proofs.Validation.Soundness
import Bindery.Proofs.Resolution.Shape
import Bindery.Proofs.Resolution.Misses
import Bindery.Proofs.Target.Block
import Bindery.Proofs.Target.Enumerations
import Bindery.Proofs.Target.Walk
import Bindery.Proofs.Generation.Agreement
import Bindery.Proofs.Target.Statement
import Bindery.Proofs.Target.TypeScript
import Bindery.Proofs.Target.Python
import Bindery.Proofs.Resolution.References
import Bindery.Proofs.Generation.References
import Bindery.Proofs.Target.Introductions
import Bindery.Proofs.Generation.Introduced
import Bindery.Proofs.Naming
import Bindery.Proofs.Resolution.Placeholders
import Bindery.Proofs.Spec.PlainNames
import Bindery.Proofs.Generation.Placeholders
import Bindery.Proofs.Text.Split
import Bindery.Proofs.Target.Phrase
import Bindery.Proofs.Target.Erasure
import Bindery.Proofs.Generation.Shadowing
import Bindery.Proofs.Generation.Parameters
import Bindery.Proofs.Document.Reading
import Bindery.Proofs.Json.Spelling
import Bindery.Proofs.Json.Quotation
import Bindery.Proofs.Spec.TypeReading
import Bindery.Proofs.Target.Comment
import Bindery.Proofs.Target.Literal
import Bindery.Proofs.Target.Recovery
import Bindery.Proofs.Target.Expression
import Bindery.Proofs.Target.Hint
import Bindery.Proofs.Target.Uncommented
import Bindery.Proofs.Spec.Reading
import Bindery.Proofs.Generation.DryRun
import Bindery.Proofs.Files.Kind
import Bindery.Proofs.Files.Looking
import Bindery.Proofs.Files.Making
import Bindery.Proofs.Command.Status
import Bindery.Proofs.Config
import Bindery.Proofs.Files.Beside
import Bindery.Proofs.Files.Confined
import Bindery.Proofs.Generation.Independence
import Bindery.Proofs.Json.Numeral
import Bindery.Proofs.Json.Integer
import Bindery.Proofs.Json.Source
import Bindery.Proofs.Json.Acceptance
import Bindery.Proofs.Json.Members
import Bindery.Proofs.Document.Schema
import Bindery.Proofs.Spec.Flags
import Bindery.Proofs.Validation.Flags
import Bindery.Proofs.Target.Flags
import Bindery.Proofs.Generation.Flags
import Bindery.Proofs.Generation.Units
import Bindery.Proofs.Generation.Emission
import Bindery.Proofs.Generation.Coverage
import Bindery.Proofs.Generation.Entities
import Bindery.Proofs.Generation.Additions
import Bindery.Proofs.Generation.Members
import Bindery.Proofs.Target.Identifiers
import Bindery.Proofs.Target.JavaScript
import Bindery.Proofs.Generation.Bridge
import Bindery.Proofs.Json.Layout
import Bindery.Proofs.Report.Reading
import Bindery.Proofs.Resolution.Ownership
import Bindery.Proofs.Resolution.Session
import Bindery.Proofs.Generation.Constants
import Bindery.Proofs.Text.Inside
import Bindery.Proofs.Target.Notes
import Bindery.Proofs.Generation.Literals
import Bindery.Proofs.Validation.Independence
import Bindery.Proofs.Files.Standing
import Bindery.Proofs.Generation.Handover
import Bindery.Proofs.Generation.Interruption
import Bindery.Proofs.Spec.Names
import Bindery.Proofs.Target.Names
import Bindery.Proofs.Target.Lines
import Bindery.Proofs.Target.Blocks
import Bindery.Proofs.Generation.Stubs
import Bindery.Proofs.Naming.Words
import Bindery.Proofs.Generation.Lines
import Bindery.Proofs.Generation.Steps
import Bindery.Proofs.Spec.Rearranged
import Bindery.Proofs.Naming.Snake
import Bindery.Proofs.Config.Layers
import Bindery.Proofs.Report.Summary
import Bindery.Proofs.Generation.Diagnosis
import Bindery.Proofs.Text.Pieces
import Bindery.Proofs.Spec.Paths
import Bindery.Proofs.Validation.Positions
import Bindery.Proofs.Naming.Letters
