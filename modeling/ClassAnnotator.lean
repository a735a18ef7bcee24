import ClassAnnotator.Main
import ClassAnnotator.Plugin.Host
import ClassAnnotator.Proofs.Decoding
import ClassAnnotator.Proofs.Removal
import ClassAnnotator.Proofs.Reordering
import ClassAnnotator.Proofs.Insertion
import ClassAnnotator.Proofs.PairArguments
import ClassAnnotator.Proofs.Interchange
import ClassAnnotator.Proofs.Leaves
import ClassAnnotator.Proofs.ListOptions
import ClassAnnotator.Proofs.HostRuns
import ClassAnnotator.Proofs.Header
import ClassAnnotator.Proofs.Places
import ClassAnnotator.Proofs.Unwrapping
import ClassAnnotator.Proofs.Grammar
import ClassAnnotator.Proofs.WordOptions
import ClassAnnotator.Proofs.QuotedWords
import ClassAnnotator.Proofs.Braces
import ClassAnnotator.Proofs.OptionNames
import ClassAnnotator.Proofs.Offences
import ClassAnnotator.Proofs.Presence
import ClassAnnotator.Proofs.Advice
import ClassAnnotator.Proofs.Nesting
import ClassAnnotator.Proofs.Extension
import ClassAnnotator.Proofs.Respelling
import ClassAnnotator.Proofs.Verdict
import ClassAnnotator.Proofs.CompileLog
import ClassAnnotator.Proofs.PrintedReport
import ClassAnnotator.Proofs.AnyCatalog
import ClassAnnotator.Proofs.InsertionOrder
