import Roundtable.Capability
import Roundtable.Console.Arguments
import Roundtable.Console.Command
import Roundtable.Console.Help
import Roundtable.Console.Process
import Roundtable.Console.Report
import Roundtable.Console.Sample
import Roundtable.Console.Style
import Roundtable.Course
import Roundtable.Delegation
import Roundtable.Environment
import Roundtable.Event
import Roundtable.EventBus
import Roundtable.Failure
import Roundtable.File.Path
import Roundtable.File.Program
import Roundtable.File.Tree
import Roundtable.Grove
import Roundtable.Json.Decoder
import Roundtable.Json.Loose
import Roundtable.Json.Node
import Roundtable.Json.Printer
import Roundtable.Json.Value
import Roundtable.Main
import Roundtable.Manifest.Basic
import Roundtable.Manifest.Format
import Roundtable.Manifest.Loading
import Roundtable.Notice
import Roundtable.Number.Binary64
import Roundtable.Number.Decimal
import Roundtable.Number.Shortest
import Roundtable.Number.Whole
import Roundtable.Pool
import Roundtable.Proofs.Course.Chronicle
import Roundtable.Proofs.Course.Coherence
import Roundtable.Proofs.Course.Convoy
import Roundtable.Proofs.Course.Drain
import Roundtable.Proofs.Course.Ending
import Roundtable.Proofs.Course.Journey
import Roundtable.Proofs.Course.Latecomer
import Roundtable.Proofs.Course.Likeness
import Roundtable.Proofs.Course.Memory
import Roundtable.Proofs.Course.Outcome
import Roundtable.Proofs.Course.Residue
import Roundtable.Proofs.Course.Rounds
import Roundtable.Proofs.Course.Stock
import Roundtable.Proofs.Course.Stride
import Roundtable.Proofs.Course.Tale
import Roundtable.Proofs.Course.Venture
import Roundtable.Proofs.EventBus.Accounts
import Roundtable.Proofs.EventBus.Calls
import Roundtable.Proofs.EventBus.Isolation
import Roundtable.Proofs.EventBus.Minutes
import Roundtable.Proofs.EventBus.Pages
import Roundtable.Proofs.EventBus.Stream
import Roundtable.Proofs.File.Faults
import Roundtable.Proofs.File.Trees
import Roundtable.Proofs.Grove.Felling
import Roundtable.Proofs.Grove.Growth
import Roundtable.Proofs.Json.Decoding
import Roundtable.Proofs.Json.Numbers
import Roundtable.Proofs.Json.Parts
import Roundtable.Proofs.Json.Plain
import Roundtable.Proofs.Json.Reading
import Roundtable.Proofs.Json.Texts
import Roundtable.Proofs.Json.Torn
import Roundtable.Proofs.Lists
import Roundtable.Proofs.Manifest.Parts
import Roundtable.Proofs.Manifest.Rewriting
import Roundtable.Proofs.Pool.Ledger
import Roundtable.Proofs.Pool.Likeness
import Roundtable.Proofs.Pool.Turn
import Roundtable.Proofs.Queue.Alike
import Roundtable.Proofs.Queue.Answers
import Roundtable.Proofs.Queue.Balance
import Roundtable.Proofs.Queue.Eras
import Roundtable.Proofs.Queue.Exchange
import Roundtable.Proofs.Queue.Independence
import Roundtable.Proofs.Queue.Life
import Roundtable.Proofs.Queue.Neighbours
import Roundtable.Proofs.Queue.Numbers
import Roundtable.Proofs.Queue.Order
import Roundtable.Proofs.Queue.Renaming
import Roundtable.Proofs.Queue.Soundness
import Roundtable.Proofs.Queue.Stalls
import Roundtable.Proofs.Queue.Vigil
import Roundtable.Proofs.Session.Ancestry
import Roundtable.Proofs.Session.Decoding
import Roundtable.Proofs.Session.Depth
import Roundtable.Proofs.Session.Descent
import Roundtable.Proofs.Spawn.Engagement
import Roundtable.Proofs.Spawn.Rehearsed
import Roundtable.Proofs.Spawn.Report
import Roundtable.Proofs.Store.Agreement
import Roundtable.Proofs.Store.Interrupted
import Roundtable.Proofs.Store.Keeping
import Roundtable.Proofs.Store.Legible
import Roundtable.Proofs.Store.Pages
import Roundtable.Proofs.Store.Paths
import Roundtable.Proofs.Store.Reading
import Roundtable.Proofs.Store.Register
import Roundtable.Proofs.Store.Twins
import Roundtable.Proofs.Text.Cuts
import Roundtable.Proofs.Text.Numerals
import Roundtable.Proofs.Text.Places
import Roundtable.Proofs.Time.Dates
import Roundtable.Proofs.Time.Instants
import Roundtable.Proofs.Time.Spans
import Roundtable.Proofs.Yaml.Readings
import Roundtable.Proofs.Yaml.Records
import Roundtable.Queue.Basic
import Roundtable.Queue.Desk
import Roundtable.Queue.Record
import Roundtable.Queue.Waiting
import Roundtable.Rehearsal.Exercise
import Roundtable.Rehearsal.Format
import Roundtable.Rehearsal.Job
import Roundtable.Rehearsal.Script
import Roundtable.Rehearsal.Season
import Roundtable.Rehearsal.Strand
import Roundtable.Rehearsal.World
import Roundtable.Run
import Roundtable.RunId
import Roundtable.Session
import Roundtable.Spawn
import Roundtable.Store.Basic
import Roundtable.Store.Directory
import Roundtable.Store.Memory
import Roundtable.Store.Record
import Roundtable.SubAgent
import Roundtable.Task
import Roundtable.Text.Blank
import Roundtable.Text.Numeral
import Roundtable.Text.Quoted
import Roundtable.Text.Split
import Roundtable.Time.Calendar
import Roundtable.Time.Instant
import Roundtable.Time.Span
import Roundtable.Uuid
import Roundtable.Yaml.Cursor
import Roundtable.Yaml.Decoder
import Roundtable.Yaml.Document
import Roundtable.Yaml.Meaning
import Roundtable.Yaml.Printer
import Roundtable.Yaml.Scalar
import Roundtable.Yaml.Token
import Roundtable.Proofs.Manifest.Rewriting
