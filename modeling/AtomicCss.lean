import AtomicCss.Channel.Bounded
import AtomicCss.Channel.Broadcast
import AtomicCss.Config
import AtomicCss.Config.Document
import AtomicCss.Connection
import AtomicCss.Connection.Call
import AtomicCss.Connection.Recorder
import AtomicCss.CustomProperty
import AtomicCss.Directive
import AtomicCss.Document.NodeKey
import AtomicCss.Document.Update
import AtomicCss.Escape
import AtomicCss.Escape.Bytes
import AtomicCss.Json.Reader
import AtomicCss.Json.Value
import AtomicCss.Log
import AtomicCss.Media
import AtomicCss.Proofs.Channel.Laws
import AtomicCss.Proofs.Connection.Alike
import AtomicCss.Proofs.Connection.Inbound
import AtomicCss.Proofs.Connection.Outbound
import AtomicCss.Proofs.Connection.RulesFirst
import AtomicCss.Proofs.Connection.Step
import AtomicCss.Proofs.Connection.Watched
import AtomicCss.Proofs.CustomProperty.Runs
import AtomicCss.Proofs.Directive.ClassName
import AtomicCss.Proofs.Directive.RuleText
import AtomicCss.Proofs.Directive.Unique
import AtomicCss.Proofs.Document.KeyManager
import AtomicCss.Proofs.Document.KeySpace
import AtomicCss.Proofs.Document.NodeKey
import AtomicCss.Proofs.Escape.Bytes
import AtomicCss.Proofs.Escape.Canonical
import AtomicCss.Proofs.Escape.Grammar
import AtomicCss.Proofs.Escape.Reader
import AtomicCss.Proofs.Escape.RoundTrip
import AtomicCss.Proofs.Media.Detection
import AtomicCss.Proofs.Stylesheet.Laws
import AtomicCss.Proofs.Stylesheet.Refinement
import AtomicCss.Proofs.Synthesis.Compile
import AtomicCss.Proofs.Synthesis.Resolution
import AtomicCss.Proofs.Synthesis.Sequence
import AtomicCss.Proofs.Text.Cut
import AtomicCss.Proofs.Text.Words
import AtomicCss.Proofs.Token.ClassName
import AtomicCss.Proofs.Token.Grammar
import AtomicCss.Proofs.Token.Halves
import AtomicCss.Proofs.Token.Registers
import AtomicCss.Proofs.Token.Rereading
import AtomicCss.Proofs.Token.Spelling
import AtomicCss.Proofs.Tracker.Apart
import AtomicCss.Proofs.Tracker.Backed
import AtomicCss.Proofs.Tracker.Batches
import AtomicCss.Proofs.Tracker.Echo
import AtomicCss.Proofs.Tracker.Exchange
import AtomicCss.Proofs.Tracker.Matching
import AtomicCss.Proofs.Tracker.Moves
import AtomicCss.Proofs.Tracker.Pairing
import AtomicCss.Proofs.Tracker.Recall
import AtomicCss.Proofs.Tracker.Removal
import AtomicCss.Proofs.Tracker.Reports
import AtomicCss.Proofs.Tracker.Settings
import AtomicCss.Proofs.Tracker.Step
import AtomicCss.Proofs.Tracker.Stream
import AtomicCss.Proofs.Tracker.Sweep
import AtomicCss.Stylesheet
import AtomicCss.Stylesheet.StyleElement
import AtomicCss.Synthesis
import AtomicCss.Text.Blank
import AtomicCss.Text.Cut
import AtomicCss.Text.Hidden
import AtomicCss.Text.Quoted
import AtomicCss.Token
import AtomicCss.Token.Registers
import AtomicCss.Tracker
import AtomicCss.Tracker.Call
import AtomicCss.Tracker.Element
