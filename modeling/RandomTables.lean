import RandomTables.Engine.Command
import RandomTables.Main
import RandomTables.Playground
import RandomTables.Proofs.Random.Bounds
import RandomTables.Proofs.Evaluation.Meaning
import RandomTables.Proofs.Evaluation.Soundness
import RandomTables.Proofs.Evaluation.Congruence
import RandomTables.Proofs.Random.Ending
import RandomTables.Proofs.Evaluation.Budget
import RandomTables.Proofs.Article
import RandomTables.Proofs.Quotation
import RandomTables.Proofs.Template.Forest
import RandomTables.Proofs.Template.Flat
import RandomTables.Proofs.Template.Clear
import RandomTables.Proofs.Template.Shape
import RandomTables.Proofs.Template.Cutting
import RandomTables.Proofs.Template.Reading
import RandomTables.Proofs.Template.Agreement
import RandomTables.Proofs.Template.Inspection
import RandomTables.Proofs.Template.Reference
import RandomTables.Proofs.Template.Tree
import RandomTables.Proofs.Template.Normal
import RandomTables.Proofs.Template.Nested
import RandomTables.Proofs.Template.Notation
import RandomTables.Proofs.Template.Expression
import RandomTables.Proofs.Template.Balance
import RandomTables.Proofs.Template.Valid
import RandomTables.Proofs.Table.Merge
import RandomTables.Proofs.Random.Tape
import RandomTables.Proofs.Engine.Runs
import RandomTables.Proofs.Evaluation.Mirror
import RandomTables.Proofs.Engine.Events
import RandomTables.Proofs.Evaluation.Growth
import RandomTables.Proofs.Table.Grouping
import RandomTables.Proofs.Table.Loading
import RandomTables.Proofs.Template.Prose
import RandomTables.Proofs.Evaluation.Exclusion
import RandomTables.Proofs.Template.Partner
import RandomTables.Proofs.Name.Walk
import RandomTables.Proofs.Template.Folding
import RandomTables.Proofs.Template.Decoration
import RandomTables.Proofs.Template.Repair
import RandomTables.Proofs.Name.Counts
import RandomTables.Proofs.Name.Attempts
import RandomTables.Proofs.Article.Runs
import RandomTables.Proofs.Name.Length
import RandomTables.Proofs.Article.Again
import RandomTables.Proofs.Weight
import RandomTables.Proofs.Engine.Generation
import RandomTables.Proofs.Engine.Range
import RandomTables.Proofs.Template.Span
import RandomTables.Proofs.Table.Listing
import RandomTables.Proofs.Table.Conversion
import RandomTables.Proofs.Table.Folder
import RandomTables.Proofs.Template.Soft
import RandomTables.Proofs.Template.Paths
import RandomTables.Proofs.Lint
import RandomTables.Proofs.Lint.Recursion
import RandomTables.Proofs.Text.Lowered
import RandomTables.Proofs.Name.Origin
import RandomTables.Proofs.Weight.Suffix
