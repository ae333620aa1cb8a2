import ShapeBindings.FileTree
import ShapeBindings.Main
import ShapeBindings.NativeRecord
import ShapeBindings.Proofs.Calendar.Dates
import ShapeBindings.Proofs.Calendar.Gregorian
import ShapeBindings.Proofs.Calendar.Texts
import ShapeBindings.Proofs.Calendar.Words
import ShapeBindings.Proofs.Dictionary
import ShapeBindings.Proofs.Files.Location
import ShapeBindings.Proofs.Files.Looking
import ShapeBindings.Proofs.Files.Requests
import ShapeBindings.Proofs.Files.Tree
import ShapeBindings.Proofs.Files.Upward
import ShapeBindings.Proofs.Header.BlockComments
import ShapeBindings.Proofs.Header.Comments
import ShapeBindings.Proofs.Header.Composition
import ShapeBindings.Proofs.Header.Counting
import ShapeBindings.Proofs.Header.Declarations
import ShapeBindings.Proofs.Header.ErrorLines
import ShapeBindings.Proofs.Header.Gaps
import ShapeBindings.Proofs.Header.Kinds
import ShapeBindings.Proofs.Header.Layouts
import ShapeBindings.Proofs.Header.LineComments
import ShapeBindings.Proofs.Header.LineEndings
import ShapeBindings.Proofs.Header.Markers
import ShapeBindings.Proofs.Header.Multiline
import ShapeBindings.Proofs.Header.OpenText
import ShapeBindings.Proofs.Header.Parameters
import ShapeBindings.Proofs.Header.Reading
import ShapeBindings.Proofs.Header.Remarks
import ShapeBindings.Proofs.Header.RoundTrip
import ShapeBindings.Proofs.Header.SameWords
import ShapeBindings.Proofs.Header.Tokens
import ShapeBindings.Proofs.Header.Visible
import ShapeBindings.Proofs.Header.Whitespace
import ShapeBindings.Proofs.Marshal.Evaluation
import ShapeBindings.Proofs.Marshal.Reading
import ShapeBindings.Proofs.Marshal.Soundness
import ShapeBindings.Proofs.Naming
import ShapeBindings.Proofs.NativeRecord.History
import ShapeBindings.Proofs.NativeRecord.Stdlib
import ShapeBindings.Proofs.NativeRecord.Wrappers
import ShapeBindings.Proofs.Plan
import ShapeBindings.Proofs.Plan.History
import ShapeBindings.Proofs.Project.Atomic
import ShapeBindings.Proofs.Project.Banners
import ShapeBindings.Proofs.Project.Discovery
import ShapeBindings.Proofs.Project.Distinct
import ShapeBindings.Proofs.Project.Index
import ShapeBindings.Proofs.Project.Job
import ShapeBindings.Proofs.Project.Legal
import ShapeBindings.Proofs.Project.Listing
import ShapeBindings.Proofs.Project.Loaded
import ShapeBindings.Proofs.Project.Names
import ShapeBindings.Proofs.Project.Outputs
import ShapeBindings.Proofs.Project.Overwriting
import ShapeBindings.Proofs.Project.Sources
import ShapeBindings.Proofs.Project.Template
import ShapeBindings.Proofs.Project.Units
import ShapeBindings.Proofs.Steps
import ShapeBindings.Proofs.Table
import ShapeBindings.Proofs.Table.History
import ShapeBindings.Proofs.Table.Merging
import ShapeBindings.Proofs.Table.Place
import ShapeBindings.Proofs.TableFile
import ShapeBindings.Proofs.Text.Letter
import ShapeBindings.Proofs.Text.Lines
import ShapeBindings.Proofs.Text.Order
import ShapeBindings.Proofs.Text.Splitting
import ShapeBindings.Proofs.Text.Squeeze
import ShapeBindings.Proofs.Text.Trim
import ShapeBindings.Proofs.Text.Utf8
import ShapeBindings.Proofs.Text.Words
import ShapeBindings.Proofs.Text.Writing
import ShapeBindings.Proofs.Toml.Documents
import ShapeBindings.Proofs.Toml.Quoted
import ShapeBindings.Proofs.Toml.Tables
import ShapeBindings.Proofs.Unit.Declared
import ShapeBindings.Proofs.Unit.Faults
import ShapeBindings.Proofs.Unit.Imports
import ShapeBindings.Proofs.Unit.Lines
import ShapeBindings.Proofs.Unit.Preamble
import ShapeBindings.Proofs.Unit.Provenance
import ShapeBindings.Proofs.Unit.Structure
import ShapeBindings.Proofs.Unit.Types
import ShapeBindings.Proofs.WellFormed
