import CodeAtlas.Activity.Basic
import CodeAtlas.Activity.Pool
import CodeAtlas.Answer
import CodeAtlas.Calendar
import CodeAtlas.Chunk.Basic
import CodeAtlas.Citation
import CodeAtlas.Citation.Check
import CodeAtlas.CommandLine.Command
import CodeAtlas.CommandLine.Run
import CodeAtlas.CommandLine.Switches
import CodeAtlas.Confidence
import CodeAtlas.Decimal.Notation
import CodeAtlas.Precision
import CodeAtlas.Decimal.Shortest
import CodeAtlas.Document.Catalogue
import CodeAtlas.Document.Concerns
import CodeAtlas.Document.Sketch
import CodeAtlas.Document.Overview
import CodeAtlas.Document.Writer
import CodeAtlas.Document.Topics
import CodeAtlas.Duration
import CodeAtlas.Facts.Basic
import CodeAtlas.Facts.Codec
import CodeAtlas.Failure
import CodeAtlas.FileTree
import CodeAtlas.Findings.Analyst
import CodeAtlas.Findings.Basic
import CodeAtlas.Findings.Codec
import CodeAtlas.Findings.Reply
import CodeAtlas.Gate.Basic
import CodeAtlas.Gate.Checks
import CodeAtlas.Graph.Basic
import CodeAtlas.Graph.Build
import CodeAtlas.Graph.Codec
import CodeAtlas.Graph.Snapshot
import CodeAtlas.Graph.Walk
import CodeAtlas.Guard.Breaker
import CodeAtlas.Guard.Registry
import CodeAtlas.Guard.Retry
import CodeAtlas.Guard.SingleFlight
import CodeAtlas.Hash.Blake3
import CodeAtlas.Json.Basic
import CodeAtlas.Json.Record
import CodeAtlas.Json.Number
import CodeAtlas.Json.Printer
import CodeAtlas.Json.Reader
import CodeAtlas.Json.Token
import CodeAtlas.Main
import CodeAtlas.Models.Basic
import CodeAtlas.Models.Guarded
import CodeAtlas.Models.Usage
import CodeAtlas.Models.Wire
import CodeAtlas.Progress
import CodeAtlas.Proofs.Graph.Answers
import CodeAtlas.Proofs.Graph.Insertion
import CodeAtlas.Proofs.Graph.Reach
import CodeAtlas.Reasoning
import CodeAtlas.Rehearsal.Basic
import CodeAtlas.Rehearsal.Brief
import CodeAtlas.Rehearsal.Calls
import CodeAtlas.Rehearsal.Commands
import CodeAtlas.Rehearsal.Graphs
import CodeAtlas.Rehearsal.Setup
import CodeAtlas.Rehearsal.Script
import CodeAtlas.Report
import CodeAtlas.Repository.Ingest
import CodeAtlas.Retrieval.Basic
import CodeAtlas.Retrieval.Retriever
import CodeAtlas.Scan.Pattern
import CodeAtlas.Scan.Source
import CodeAtlas.Scan.Sql
import CodeAtlas.Scan.Syntax
import CodeAtlas.Settings.Basic
import CodeAtlas.Settings.Codec
import CodeAtlas.Settings.Load
import CodeAtlas.Stage.Basic
import CodeAtlas.Store.Keeper
import CodeAtlas.Store.Checkpoints
import CodeAtlas.Store.Snapshots
import CodeAtlas.Store.Vectors
import CodeAtlas.Survey.Basic
import CodeAtlas.Survey.Surveyor
import CodeAtlas.Text.Ranges
import CodeAtlas.Text.Basic
import CodeAtlas.Text.Lower
import CodeAtlas.Toml.Reader
import CodeAtlas.Toml.Scalar
import CodeAtlas.Width
import CodeAtlas.Words
import CodeAtlas.Proofs.Activity.Pool
import CodeAtlas.Proofs.Activity.Prompt
import CodeAtlas.Proofs.Calendar.Dates
import CodeAtlas.Proofs.Calendar.Text
import CodeAtlas.Proofs.Findings.Codec
import CodeAtlas.Proofs.Findings.Reading
import CodeAtlas.Proofs.Findings.Resume
import CodeAtlas.Proofs.Guard.Traffic
import CodeAtlas.Proofs.Guard.Windows
import CodeAtlas.Proofs.Guard.Trials
import CodeAtlas.Proofs.Models.Exchange
import CodeAtlas.Proofs.Models.Lanes
import CodeAtlas.Proofs.Guard.Flights
import CodeAtlas.Proofs.Models.Runs
import CodeAtlas.Proofs.Report.Exact
import CodeAtlas.Proofs.Activity.Stops
import CodeAtlas.Proofs.Stage.Groups
import CodeAtlas.Proofs.Findings.Deadline
import CodeAtlas.Proofs.Survey.Readings
import CodeAtlas.Proofs.Activity.Proceeds
import CodeAtlas.Proofs.Document.Composing
import CodeAtlas.Proofs.Survey.Law
import CodeAtlas.Proofs.Survey.Runnable
import CodeAtlas.Proofs.Store.History
import CodeAtlas.Proofs.Store.Agreement
import CodeAtlas.Proofs.Graph.Passes
import CodeAtlas.Proofs.Graph.Calls
import CodeAtlas.Proofs.Graph.Survival
import CodeAtlas.Proofs.Chunk.Windows
import CodeAtlas.Proofs.Document.Citations
import CodeAtlas.Proofs.Findings.Order
import CodeAtlas.Proofs.Activity.Diary
import CodeAtlas.Proofs.Stage.Alike
import CodeAtlas.Proofs.Stage.Watched
import CodeAtlas.Proofs.Floating.Arithmetic
import CodeAtlas.Proofs.Retrieval.Answers
import CodeAtlas.Proofs.Retrieval.BestEffort
import CodeAtlas.Proofs.Retrieval.Exact
import CodeAtlas.Proofs.Retrieval.Searches
import CodeAtlas.Proofs.Survey.Storing
import CodeAtlas.Proofs.Findings.Watched
import CodeAtlas.Proofs.Graph.Listing
import CodeAtlas.Proofs.Graph.Walks
import CodeAtlas.Proofs.Graph.Resolution
import CodeAtlas.Proofs.Graph.Accepted
import CodeAtlas.Proofs.Graph.References
import CodeAtlas.Proofs.CommandLine.Containment
import CodeAtlas.Proofs.Words.Separators
import CodeAtlas.Proofs.Words.Pieces
import CodeAtlas.Proofs.Report.Verdicts
import CodeAtlas.Proofs.Reasoning.Held
import CodeAtlas.Proofs.Reasoning.Workflows
import CodeAtlas.Proofs.Activity.Series
import CodeAtlas.Proofs.Guard.Retries
import CodeAtlas.Proofs.Models.Dealings
import CodeAtlas.Proofs.Models.Completions
import CodeAtlas.Proofs.Models.Fallback
import CodeAtlas.Proofs.Models.Batches
import CodeAtlas.Proofs.Text.Pieces
import CodeAtlas.Proofs.Findings.Transcript
import CodeAtlas.Proofs.Json.Forms
import CodeAtlas.Proofs.Findings.Legible
import CodeAtlas.Proofs.Models.Parts
import CodeAtlas.Proofs.Findings.Unserved
import CodeAtlas.Proofs.Models.Embeddings
import CodeAtlas.Proofs.Scan.Nesting
import CodeAtlas.Proofs.Scan.Docstrings
import CodeAtlas.Proofs.Scan.Tables
import CodeAtlas.Proofs.Chunk.Fingerprints
import CodeAtlas.Proofs.Repository.Contents
import CodeAtlas.Proofs.Gate.Placeholders
import CodeAtlas.Proofs.Gate.Stretches
import CodeAtlas.Proofs.Gate.OpenCode
import CodeAtlas.Proofs.Gate.Confidence
import CodeAtlas.Proofs.Gate.Verdict
import CodeAtlas.Proofs.Document.Attempts
import CodeAtlas.Proofs.Lists
import CodeAtlas.Proofs.Retrieval.Excerpt
import CodeAtlas.Proofs.Store.Vectors
import CodeAtlas.Proofs.Document.Tables
import CodeAtlas.Proofs.Findings.Sparse
import CodeAtlas.Proofs.Floating.Widening
import CodeAtlas.Proofs.Settings.Defaults
import CodeAtlas.Proofs.Settings.Environment
