import Scribe.Text.Classes
import Scribe.Decimal.Layout
import Scribe.Decimal.Reading
import Scribe.Text.Quoted
import Scribe.Script.Call
import Scribe.Script.Operation
import Scribe.Script.Grammar
import Scribe.Script.Plan
import Scribe.Repair.Primes
import Scribe.Repair.Line
import Scribe.Repair.Scores
import Scribe.Repair.Statements
import Scribe.Repair.Physical
import Scribe.Repair.Zones
import Scribe.Repair.AfterZone
import Scribe.Repair.Question
import Scribe.Repair.Containers
import Scribe.Repair.Choices
import Scribe.Repair.Pipeline
import Scribe.Document.Basic
import Scribe.Document.Editor
import Scribe.Typing.Apply
import Scribe.Session
import Scribe.Queue
import Scribe.Queue.Worker
import Scribe.Generation
import Scribe.Settings.File
import Scribe.Converter.Shell
import Scribe.Report.Values
import Scribe.Report.Record
import Scribe.CommandLine.Answer
import Scribe.Main
import Scribe.Proofs.Text.Lines
import Scribe.Proofs.Decimal.Integers
import Scribe.Proofs.Script.Balance
import Scribe.Proofs.Script.Literal
import Scribe.Proofs.Script.Call
import Scribe.Proofs.Repair.Stages
import Scribe.Proofs.Repair.ClosedLiterals
import Scribe.Proofs.Script.Piece
import Scribe.Proofs.Script.Reader
import Scribe.Proofs.Script.Value
import Scribe.Proofs.Script.Scanning
import Scribe.Proofs.Script.ScannerLines
import Scribe.Proofs.Script.Tiers
import Scribe.Proofs.Repair.Skeleton
import Scribe.Proofs.Repair.ZoneEvents
import Scribe.Proofs.Repair.ZoneSteps
import Scribe.Proofs.Repair.ZoneOrder
import Scribe.Proofs.Repair.AfterZone
import Scribe.Proofs.Script.Binding
import Scribe.Proofs.Script.Written
import Scribe.Proofs.Script.WrittenValues
import Scribe.Proofs.Script.Outside
import Scribe.Proofs.Script.Derivation
import Scribe.Proofs.Repair.ZonePlan
import Scribe.Proofs.Repair.Content
import Scribe.Proofs.Repair.ContainerDepth
import Scribe.Proofs.Repair.ZoneStructure
import Scribe.Proofs.Repair.JoinedCalls
import Scribe.Proofs.Repair.Inert
import Scribe.Proofs.Repair.Folding
import Scribe.Proofs.Repair.Rounds
import Scribe.Proofs.Repair.FlatScripts
import Scribe.Proofs.Typing.Composition
import Scribe.Proofs.Typing.Dialogue
import Scribe.Proofs.Typing.Discipline
import Scribe.Proofs.Document.Faults
import Scribe.Proofs.Session.Steps
import Scribe.Proofs.Session.Cancellation
import Scribe.Proofs.Session.Resuming
import Scribe.Proofs.Session.Reattaching
import Scribe.Proofs.Queue.Steps
import Scribe.Proofs.Queue.Service
import Scribe.Proofs.Queue.Cancelling
import Scribe.Proofs.Queue.Progress
import Scribe.Proofs.Queue.Exactness
import Scribe.Proofs.Queue.Alone
import Scribe.Proofs.Typing.Ensures
import Scribe.Proofs.Repair.Nesting
import Scribe.Proofs.Document.Splices
import Scribe.Proofs.Document.Selections
import Scribe.Proofs.Document.Places
import Scribe.Proofs.Document.Moments
import Scribe.Proofs.Typing.Selecting
import Scribe.Proofs.Session.Lives
import Scribe.Proofs.Session.TableStructure
import Scribe.Proofs.Session.Remaining
import Scribe.Proofs.Session.ResumeLoop
import Scribe.Proofs.Typing.Undisturbed
import Scribe.Proofs.Document.Cells
import Scribe.Proofs.Document.Guarded
import Scribe.Proofs.Typing.Tables
import Scribe.Proofs.Typing.LineRule
import Scribe.Proofs.Typing.LineAlignments
import Scribe.Proofs.Decimal.Rounding
import Scribe.Proofs.Decimal.Doubles
import Scribe.Proofs.Script.IntegerHelpers
import Scribe.Proofs.Text.Paths
import Scribe.Proofs.Document.Markers
import Scribe.Proofs.Document.Depth
import Scribe.Proofs.Document.Cursors
import Scribe.Proofs.Typing.Calm
import Scribe.Proofs.Typing.Coherence
import Scribe.Proofs.Typing.Standing
import Scribe.Proofs.Typing.Focusing
import Scribe.Proofs.Typing.TemplateZones
import Scribe.Proofs.Script.Layout
import Scribe.Proofs.Typing.Phases
import Scribe.Proofs.Repair.TemplateUse
import Scribe.Proofs.Session.Markers
import Scribe.Proofs.Repair.HeaderBlocks
import Scribe.Proofs.Repair.ScoreLines
import Scribe.Proofs.Repair.ZonePlaces
import Scribe.Proofs.Repair.ZonesInPlace
import Scribe.Proofs.Repair.ZoneStability
import Scribe.Proofs.Repair.EquationLiterals
import Scribe.Proofs.Repair.TidyContainers
import Scribe.Proofs.Repair.OneLineCalls
import Scribe.Proofs.Repair.Respelling
import Scribe.Proofs.Repair.PrimeRules
import Scribe.Proofs.Repair.PrimePasses
import Scribe.Proofs.Repair.PrimeStability
