import Logline.Config.Printer
import Logline.Demo
import Logline.Session.Run
import Logline.Proofs.Pattern.Grammar
import Logline.Proofs.Pattern.Meaning
import Logline.Proofs.Pattern.Concatenation
import Logline.Proofs.Pattern.Written
import Logline.Proofs.Appender.Ledger
import Logline.Proofs.Registry.Names
import Logline.Proofs.Logger.Attachment
import Logline.Proofs.Appender.Fate
import Logline.Proofs.System.Frame
import Logline.Proofs.System.History
import Logline.Proofs.System.Routing
import Logline.Proofs.Output.Appending
import Logline.Proofs.Output.Naming
import Logline.Proofs.Appender.Filing
import Logline.Proofs.System.Deposits
import Logline.Proofs.System.Preparation
import Logline.Proofs.System.Refusal
import Logline.Proofs.System.Installation
import Logline.Proofs.Config.RoundTrip
import Logline.Proofs.System.Registration
import Logline.Proofs.System.Threads
import Logline.Proofs.System.Neighbours
import Logline.Proofs.Pattern.Repair
import Logline.Proofs.Output.Streaming
import Logline.Proofs.System.Emptying
import Logline.Proofs.System.Formatting
import Logline.Proofs.Session.Formatting
import Logline.Proofs.System.Membership
import Logline.Proofs.Appender.Opening
import Logline.Proofs.System.Sharing
import Logline.Proofs.Appender.Diagnostics
import Logline.Proofs.Sink.Console
import Logline.Proofs.Text.Decimal
import Logline.Proofs.TimeFormat.Usability
import Logline.Proofs.Calendar
import Logline.Proofs.TimeFormat.Standard
import Logline.Proofs.Formatter.StandardLine
import Logline.Proofs.TimeFormat.Order
import Logline.Proofs.Level.Words
import Logline.Proofs.Output.Blocks
import Logline.Proofs.Sink.Blocks
import Logline.Proofs.System.Flushing
