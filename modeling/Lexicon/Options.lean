import Lexicon.CaseFold

/-!
# Options of compilation
-/

namespace Lexicon

/-- How a set of labels is compiled. -/
structure Options where
  /-- Applied to the labels when the table is built and to the input when it is matched. -/
  fold : CaseFold
  /-- Whether a chain of characters without a choice is tested as one. The inputs that match are
  the same either way. -/
  condense : Bool
deriving DecidableEq

namespace Options

/-- Characters are compared as they are. -/
def ordinal : Options := ⟨.ordinal, true⟩

/-- Characters are compared without case. -/
def ignoreCase : Options := ⟨.ignoreCase, true⟩

instance : Inhabited Options := ⟨ordinal⟩

/-- The options with another fold. -/
def withFold (options : Options) (fold : CaseFold) : Options :=
  { options with fold }

/-- The options with condensation on or off. -/
def withCondense (options : Options) (condense : Bool) : Options :=
  { options with condense }

end Options

end Lexicon
