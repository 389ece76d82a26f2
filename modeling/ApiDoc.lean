import ApiDoc.CommandLine.Run
import ApiDoc.Main
import ApiDoc.Proofs.Completion.Recursion
import ApiDoc.Proofs.Inheritance.Cycle
import ApiDoc.Proofs.Inheritance.Meaning
import ApiDoc.Proofs.Links.Verdict
import ApiDoc.Proofs.Stack.Effects
import ApiDoc.Proofs.Stack.Runs
import ApiDoc.Proofs.Stack.Calls
import ApiDoc.Proofs.Stack.Once
import ApiDoc.Proofs.Session.Interruption
import ApiDoc.Proofs.Inheritance.Exclusive
import ApiDoc.Proofs.Inheritance.Final
import ApiDoc.Proofs.Completion.Balance
import ApiDoc.Proofs.Order.Matching
import ApiDoc.Proofs.Workspace.Reading
import ApiDoc.Proofs.Order.Declarations
import ApiDoc.Proofs.Order.Reordering
import ApiDoc.Proofs.Order.Manifest
import ApiDoc.Proofs.Order.Independence
import ApiDoc.Proofs.Text.Blank
import ApiDoc.Proofs.Sections.Complaints
import ApiDoc.Proofs.Token.Segmentation
import ApiDoc.Proofs.Sections.StrayText
import ApiDoc.Proofs.Data.RoundTrip
import ApiDoc.Proofs.Resolution.Naming
import ApiDoc.Proofs.Token.Printing
import ApiDoc.Proofs.OrderedMap
import ApiDoc.Proofs.Markup.Normalize
import ApiDoc.Proofs.Sections.Openings
import ApiDoc.Proofs.Sections.Contents
import ApiDoc.Proofs.Session.Edits
import ApiDoc.Proofs.Sections.Marks
import ApiDoc.Proofs.Order.Families
import ApiDoc.Proofs.Order.Coverage
import ApiDoc.Proofs.Resolution.Notation
import ApiDoc.Proofs.Inheritance.Reachable
import ApiDoc.Proofs.Session.NormalForm
import ApiDoc.Proofs.Session.Attribution
import ApiDoc.Proofs.Markup.Paragraph
import ApiDoc.Proofs.Markup.Paragraphs
import ApiDoc.Proofs.Sections.Inline
import ApiDoc.Proofs.Links.Pending
import ApiDoc.Proofs.Links.Unqualified
import ApiDoc.Proofs.Session.Robustness
import ApiDoc.Proofs.Links.Address
import ApiDoc.Proofs.Sections.Tags
import ApiDoc.Proofs.Inheritance.Deprecation
import ApiDoc.Proofs.Stack.Warnings
import ApiDoc.Proofs.Links.Outcome
import ApiDoc.Proofs.Markup.Escape
import ApiDoc.Proofs.Comment.LineEndings
import ApiDoc.Proofs.Token.InlineName
import ApiDoc.Proofs.Manifest.WellFormed
import ApiDoc.Proofs.Text.Utf8
import ApiDoc.Proofs.Manifest.Log
import ApiDoc.Proofs.CommandLine.Outcome
