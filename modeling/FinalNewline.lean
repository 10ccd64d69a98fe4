import FinalNewline.Main
import FinalNewline.Exports
import FinalNewline.Shelf
import FinalNewline.Proofs.Copies
import FinalNewline.Proofs.Output
import FinalNewline.Proofs.Refusals
import FinalNewline.Proofs.Lines
import FinalNewline.Proofs.Recovery
import FinalNewline.Proofs.Success
import FinalNewline.Proofs.Ledger
import FinalNewline.Proofs.Resumption
import FinalNewline.Proofs.Lookups
import FinalNewline.Proofs.CommandLines
import FinalNewline.Proofs.Cuts
import FinalNewline.Proofs.Loops
import FinalNewline.Proofs.Shelves
import FinalNewline.Proofs.Muting
import FinalNewline.Proofs.Normalization
import FinalNewline.Proofs.Passes
import FinalNewline.Proofs.Reports
