import TwoPass.Isa.Numbering
import TwoPass.Main
import TwoPass.Session
import TwoPass.Sink
import TwoPass.Proofs.BranchTargets
import TwoPass.Proofs.Faults
import TwoPass.Proofs.FileChanges
import TwoPass.Proofs.ListingRows
import TwoPass.Proofs.PlainSources
import TwoPass.Proofs.Reassembly
import TwoPass.Proofs.Relocation
import TwoPass.Proofs.Renaming
import TwoPass.Proofs.Truncation
import TwoPass.Proofs.Partition
import TwoPass.Proofs.Restoring
import TwoPass.Proofs.OptionEffects
import TwoPass.Proofs.Spelling
import TwoPass.Proofs.Layout
import TwoPass.Proofs.Concatenation
import TwoPass.Proofs.Separators
import TwoPass.Proofs.LineGrammar
import TwoPass.Proofs.ImageGrammar
import TwoPass.Proofs.JoinedImages
import TwoPass.Proofs.InstructionTable
import TwoPass.Proofs.BoundedLiterals
import TwoPass.Proofs.ListingWords
import TwoPass.Proofs.BoundedOutput
import TwoPass.Proofs.SymbolOrder
import TwoPass.Proofs.Endings
import TwoPass.Proofs.Sessions
