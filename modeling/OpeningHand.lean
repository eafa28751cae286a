import OpeningHand.Calendar
import OpeningHand.Card.Details
import OpeningHand.CommandLine.Form
import OpeningHand.CommandLine.Help
import OpeningHand.CommandLine.Invocation
import OpeningHand.CommandLine.Pieces
import OpeningHand.CommandLine.Reading
import OpeningHand.CommandLine.Report
import OpeningHand.CommandLine.Run
import OpeningHand.Condition.Basic
import OpeningHand.Condition.Descent
import OpeningHand.Condition.Dictionary
import OpeningHand.Condition.Fault
import OpeningHand.Condition.Journaled
import OpeningHand.Condition.Outlined
import OpeningHand.Condition.Parser
import OpeningHand.Condition.Points
import OpeningHand.Condition.Printer
import OpeningHand.Condition.Sketch
import OpeningHand.Condition.Token
import OpeningHand.Data
import OpeningHand.Deck
import OpeningHand.Document
import OpeningHand.Document.Shape
import OpeningHand.Failure
import OpeningHand.Field
import OpeningHand.Files.Disk
import OpeningHand.Files.Fault
import OpeningHand.Files.Path
import OpeningHand.Host
import OpeningHand.Ini.Fault
import OpeningHand.Ini.Reader
import OpeningHand.Ini.Store
import OpeningHand.Journal
import OpeningHand.Json
import OpeningHand.Library
import OpeningHand.Logging
import OpeningHand.Logging.Root
import OpeningHand.Main
import OpeningHand.Number.Binary64
import OpeningHand.Number.Decimal
import OpeningHand.Number.Limit
import OpeningHand.Number.Shortest
import OpeningHand.Number.Whole
import OpeningHand.Outline
import OpeningHand.PasscodeList
import OpeningHand.Problem
import OpeningHand.Proofs.CommandLine.Ending
import OpeningHand.Proofs.CommandLine.Footprint
import OpeningHand.Proofs.CommandLine.Lines
import OpeningHand.Proofs.CommandLine.Output
import OpeningHand.Proofs.CommandLine.Unreported
import OpeningHand.Proofs.Condition.Calls
import OpeningHand.Proofs.Condition.Completeness
import OpeningHand.Proofs.Condition.Deeds
import OpeningHand.Proofs.Condition.Descent
import OpeningHand.Proofs.Condition.Dictionary
import OpeningHand.Proofs.Condition.Grammar
import OpeningHand.Proofs.Condition.Layout
import OpeningHand.Proofs.Condition.Lexing
import OpeningHand.Proofs.Condition.Name
import OpeningHand.Proofs.Condition.Parentheses
import OpeningHand.Proofs.Condition.Phrase
import OpeningHand.Proofs.Condition.Places
import OpeningHand.Proofs.Condition.Printing
import OpeningHand.Proofs.Condition.Refusals
import OpeningHand.Proofs.Condition.Rest
import OpeningHand.Proofs.Condition.RoundTrip
import OpeningHand.Proofs.Condition.Sketches
import OpeningHand.Proofs.Condition.Soundness
import OpeningHand.Proofs.Condition.Tree
import OpeningHand.Proofs.Data.Distinct
import OpeningHand.Proofs.Data.Entries
import OpeningHand.Proofs.Data.OutlineData
import OpeningHand.Proofs.Deck.Holdings
import OpeningHand.Proofs.Deck.Rebuilding
import OpeningHand.Proofs.Deck.Tally
import OpeningHand.Proofs.Document.Cards
import OpeningHand.Proofs.Document.Misshapen
import OpeningHand.Proofs.Document.Outcome
import OpeningHand.Proofs.Document.Passcode
import OpeningHand.Proofs.Document.Reload
import OpeningHand.Proofs.Document.Saved
import OpeningHand.Proofs.Document.Saving
import OpeningHand.Proofs.Document.Stages
import OpeningHand.Proofs.Files.Disk
import OpeningHand.Proofs.Ini.Layers
import OpeningHand.Proofs.Lapse
import OpeningHand.Proofs.Logging.Root
import OpeningHand.Proofs.Lookup
import OpeningHand.Proofs.Number.Bases
import OpeningHand.Proofs.Number.Whole
import OpeningHand.Proofs.PasscodeList.Comments
import OpeningHand.Proofs.PasscodeList.Conversion
import OpeningHand.Proofs.PasscodeList.Reading
import OpeningHand.Proofs.PasscodeList.Section
import OpeningHand.Proofs.Result
import OpeningHand.Proofs.Settings
import OpeningHand.Proofs.Text.Lines
import OpeningHand.Proofs.Text.Numeral
import OpeningHand.Proofs.Yaml.Digits
import OpeningHand.Proofs.Yaml.Flow
import OpeningHand.Proofs.Yaml.NodeEquality
import OpeningHand.Proofs.Yaml.NodeFault
import OpeningHand.Proofs.Yaml.NodeValue
import OpeningHand.Proofs.Yaml.Part
import OpeningHand.Proofs.Yaml.Place
import OpeningHand.Proofs.Yaml.ScalarFault
import OpeningHand.Proofs.Yaml.TokenFault
import OpeningHand.Proofs.Yaml.ValueFault
import OpeningHand.Proofs.Yaml.Written.Blocks
import OpeningHand.Proofs.Yaml.Written.Characters
import OpeningHand.Proofs.Yaml.Written.Double
import OpeningHand.Proofs.Yaml.Written.Keys
import OpeningHand.Proofs.Yaml.Written.Nodes
import OpeningHand.Proofs.Yaml.Written.Numbers
import OpeningHand.Proofs.Yaml.Written.Outlines
import OpeningHand.Proofs.Yaml.Written.Plain
import OpeningHand.Proofs.Yaml.Written.Quoted
import OpeningHand.Proofs.Yaml.Written.Runs
import OpeningHand.Proofs.Yaml.Written.Scalars
import OpeningHand.Proofs.Yaml.Written.Single
import OpeningHand.Proofs.Yaml.Written.Steps
import OpeningHand.Proofs.Yaml.Written.Taken
import OpeningHand.Proofs.Yaml.Written.Values
import OpeningHand.Proofs.Yaml.Written.Walk
import OpeningHand.Session
import OpeningHand.Settings
import OpeningHand.Text.Base64
import OpeningHand.Text.Blank
import OpeningHand.Text.Digit
import OpeningHand.Text.Lines
import OpeningHand.Text.Lowercase
import OpeningHand.Text.Point
import OpeningHand.Text.Printable
import OpeningHand.Text.Quoted
import OpeningHand.Text.Utf8
import OpeningHand.Yaml.Cursor
import OpeningHand.Yaml.Fault
import OpeningHand.Yaml.Lexer
import OpeningHand.Yaml.Lexer.Block
import OpeningHand.Yaml.Lexer.Marks
import OpeningHand.Yaml.Lexer.Plain
import OpeningHand.Yaml.Lexer.Quoted
import OpeningHand.Yaml.Node
import OpeningHand.Yaml.Scalar
import OpeningHand.Yaml.Tag
import OpeningHand.Yaml.Token
import OpeningHand.Yaml.Value
import OpeningHand.Yaml.Writer
import OpeningHand.Yaml.Writer.Scalar
import OpeningHand.Yaml.Writer.Style
