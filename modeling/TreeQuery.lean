import TreeQuery.Checklist.Basic
import TreeQuery.Checklist.Bounds
import TreeQuery.Checklist.Issue
import TreeQuery.Checklist.Load
import TreeQuery.Checklist.Outcome
import TreeQuery.Command.Arguments
import TreeQuery.Command.Check
import TreeQuery.Command.Explain
import TreeQuery.Command.Find
import TreeQuery.Command.Help
import TreeQuery.Command.Program
import TreeQuery.Command.Session
import TreeQuery.Command.Vocabulary
import TreeQuery.Console.Failure
import TreeQuery.Console.Log
import TreeQuery.Console.Run
import TreeQuery.Console.Sequence
import TreeQuery.Console.Style
import TreeQuery.Json
import TreeQuery.Main
import TreeQuery.Params
import TreeQuery.Path
import TreeQuery.Php
import TreeQuery.Proofs.Cursors
import TreeQuery.Proofs.DocumentOrder
import TreeQuery.Proofs.Editing
import TreeQuery.Proofs.Expectation
import TreeQuery.Proofs.Faults
import TreeQuery.Proofs.Grammar
import TreeQuery.Proofs.Indices
import TreeQuery.Proofs.Interpolation
import TreeQuery.Proofs.Issues
import TreeQuery.Proofs.Lexing
import TreeQuery.Proofs.Matching
import TreeQuery.Proofs.Narrowing
import TreeQuery.Proofs.Outcomes
import TreeQuery.Proofs.Output
import TreeQuery.Proofs.Pairing
import TreeQuery.Proofs.Params
import TreeQuery.Proofs.Phases
import TreeQuery.Proofs.Refusal
import TreeQuery.Proofs.Relocation
import TreeQuery.Proofs.Result
import TreeQuery.Proofs.RoundTrip
import TreeQuery.Proofs.Rows
import TreeQuery.Proofs.Scanning
import TreeQuery.Proofs.Searching
import TreeQuery.Proofs.Spacing
import TreeQuery.Proofs.Stages
import TreeQuery.Proofs.Suggestions
import TreeQuery.Proofs.SyntaxFaults
import TreeQuery.Proofs.Traversal
import TreeQuery.Proofs.Validity
import TreeQuery.Proofs.Verdict
import TreeQuery.Query.Basic
import TreeQuery.Query.Error
import TreeQuery.Query.Registry
import TreeQuery.Query.Rule
import TreeQuery.Query.Stage
import TreeQuery.Query.Target
import TreeQuery.Selector.Basic
import TreeQuery.Selector.Error
import TreeQuery.Selector.Parser
import TreeQuery.Selector.Printer
import TreeQuery.Settings.Basic
import TreeQuery.Settings.Load
import TreeQuery.Text.Blank
import TreeQuery.Text.EditDistance
import TreeQuery.Text.Hidden
import TreeQuery.Text.Quoted
import TreeQuery.Token.Basic
import TreeQuery.Token.Cursor
import TreeQuery.Token.Lexeme
import TreeQuery.Token.Scan
import TreeQuery.Toml.Decode
import TreeQuery.Toml.Lexical
import TreeQuery.Toml.Parser
import TreeQuery.Toml.Scalar
import TreeQuery.Toml.Table
import TreeQuery.Toml.Value
import TreeQuery.Tree.Basic
import TreeQuery.Tree.Document
import TreeQuery.Tree.Listing
import TreeQuery.Tree.Node
import TreeQuery.Volume
import TreeQuery.Proofs.Attempts
import TreeQuery.Proofs.Literals
