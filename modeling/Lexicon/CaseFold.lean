import Lexicon.Text.Uppercase

/-!
# Case folding

A fold brings characters to the form in which they are compared. Labels are folded when a table is
built and input characters when they are read, always one character to one character, so a fold
never changes a length.
-/

namespace Lexicon

/-- How characters are brought together before they are compared. -/
inductive CaseFold where
  /-- Every character stands for itself. -/
  | ordinal
  /-- A character stands for its uppercase form, if that is a single character. -/
  | ignoreCase
deriving DecidableEq

namespace CaseFold

/-- The folded form of a character. The uppercase forms of ASCII need no table. -/
def apply (fold : CaseFold) (c : Char) : Char :=
  match fold with
  | ordinal => c
  | ignoreCase => if c.toNat < 128 then c.toUpper else Text.simpleUppercase c

/-- The folded forms of all characters of a text. -/
def applyText (fold : CaseFold) (s : String) : String :=
  String.ofList (s.toList.map fold.apply)

/-- Whether the fold leaves every character as it is. -/
def isOrdinal (fold : CaseFold) : Bool :=
  fold = ordinal

/-- The name of the fold in reports. -/
def name : CaseFold → String
  | ordinal => "Ordinal"
  | ignoreCase => "IgnoreCase"

@[simp] theorem apply_ordinal (c : Char) : apply ordinal c = c := rfl

@[simp] theorem toList_applyText (fold : CaseFold) (s : String) :
    (fold.applyText s).toList = s.toList.map fold.apply := by
  simp [applyText]

@[simp] theorem applyText_ordinal (s : String) : applyText ordinal s = s := by
  have hid : ordinal.apply = id := rfl
  simp [applyText, hid]

/-- On ASCII the uppercase table agrees with the letters' own rule. -/
private theorem simpleUppercase_ofNat :
    ∀ n : Fin 128, Text.simpleUppercase (Char.ofNat n) = (Char.ofNat n).toUpper := by
  decide +kernel

/-- Folding without case is the simple uppercase form, on ASCII as everywhere else. -/
theorem apply_ignoreCase (c : Char) : apply ignoreCase c = Text.simpleUppercase c := by
  by_cases h : c.toNat < 128
  · simpa [apply, h] using (simpleUppercase_ofNat ⟨c.toNat, h⟩).symm
  · simp [apply, h]

end CaseFold

end Lexicon
