import CommandShell.Completion
import CommandShell.Main
import CommandShell.Proofs.Accounting
import CommandShell.Proofs.Couplers
import CommandShell.Proofs.Quotation
import CommandShell.Proofs.Division
import CommandShell.Proofs.Survival
import CommandShell.Proofs.Leaving
import CommandShell.Proofs.Backdrop.Run
import CommandShell.Proofs.Capturing
import CommandShell.Proofs.Traffic
import CommandShell.Proofs.Terminal
import CommandShell.Proofs.Refusal
import CommandShell.Proofs.HistoryFile
import CommandShell.Proofs.Departure
import CommandShell.Proofs.Redirecting
import CommandShell.Proofs.Addition
import CommandShell.Proofs.CommandNames
import CommandShell.Proofs.Help.Answer
import CommandShell.Proofs.Prompting
import CommandShell.Proofs.Spelling
import CommandShell.Proofs.Bookkeeping
import CommandShell.Proofs.Anchor.Run
import CommandShell.Proofs.Stripping
import CommandShell.Proofs.Extraction
import CommandShell.Proofs.Conversing.Protocol
import CommandShell.Proofs.Rereading
import CommandShell.Proofs.Sink.Chunks
import CommandShell.Proofs.Sink.Lifecycle
import CommandShell.Proofs.Settings
import CommandShell.Proofs.Conversing.Encoding
import CommandShell.Proofs.Log
import CommandShell.Proofs.Literal
import CommandShell.Proofs.Proposing
import CommandShell.Proofs.Accepting
import CommandShell.Proofs.HistoryListing
import CommandShell.Proofs.UserPath
import CommandShell.Proofs.Composition
