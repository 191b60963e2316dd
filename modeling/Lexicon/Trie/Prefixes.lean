import Lexicon.Trie.Basic
import Mathlib.Data.List.Infix

/-!
# Prefixes

The nodes of a trie are the prefixes of its labels. `prefixes` lists these in the order in which
they first occur: entry by entry, and along each label from its first character to its last. The
empty prefix comes first, and is there without any label.
-/

namespace Lexicon

universe u

variable {V : Type u}

/-- The distinct prefixes of the labels of some entries, in the order of their first occurrence. -/
def prefixes (entries : List (Entry V)) : List (List Char) :=
  ([] :: entries.flatMap fun entry => entry.label.toList.inits).eraseDups

end Lexicon
