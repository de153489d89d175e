import BinarySize.Main
import BinarySize.Proofs.Accumulation
import BinarySize.Proofs.ByteSize.Kilobytes
import BinarySize.Proofs.CommandLine.FrontEnd
import BinarySize.Proofs.Dump.Extraction
import BinarySize.Proofs.Dump.QuotedNames
import BinarySize.Proofs.Dump.Truncation
import BinarySize.Proofs.Identifier.Unescaping
import BinarySize.Proofs.ModuleText.DefiningOpeners
import BinarySize.Proofs.ModuleText.Snippets
import BinarySize.Proofs.LineEnds
import BinarySize.Proofs.LinkMap.Below
import BinarySize.Proofs.LinkMap.FileAndSymbol
import BinarySize.Proofs.LinkMap.Rearranged
import BinarySize.Proofs.LinkMap.Written
import BinarySize.Proofs.NumberReaders
import BinarySize.Proofs.Ranking.ObjectFiles
import BinarySize.Proofs.Ranking.Order
import BinarySize.Proofs.Ranking.WithinTotals
import BinarySize.Proofs.Report.Limits
import BinarySize.Proofs.Report.Lines
import BinarySize.Proofs.Run.Again
import BinarySize.Proofs.Run.Independence
import BinarySize.Proofs.Run.ModuleTextStatus
import BinarySize.Proofs.Run.Outcome
import BinarySize.Proofs.Run.Outputs
import BinarySize.Proofs.Tools.AllOrNothing
