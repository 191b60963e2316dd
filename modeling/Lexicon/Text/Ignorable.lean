import Lexicon.Text.CodeRange

/-!
# Characters that are ignored by default

The Unicode property `Default_Ignorable_Code_Point`: what a display leaves out unless it knows the
character, such as joiners, variation selectors and the Hangul fillers. The fillers are letters by
category, so the property is not a matter of categories alone.
-/

namespace Lexicon.Text

/-- The code points that have the property. -/
def ignorables : CodeTable where
  ranges := [
    ⟨0xad, 0xad⟩, ⟨0x34f, 0x34f⟩, ⟨0x61c, 0x61c⟩, ⟨0x115f, 0x1160⟩, ⟨0x17b4, 0x17b5⟩,
    ⟨0x180b, 0x180f⟩, ⟨0x200b, 0x200f⟩, ⟨0x202a, 0x202e⟩, ⟨0x2060, 0x206f⟩, ⟨0x3164, 0x3164⟩,
    ⟨0xfe00, 0xfe0f⟩, ⟨0xfeff, 0xfeff⟩, ⟨0xffa0, 0xffa0⟩, ⟨0xfff0, 0xfff8⟩, ⟨0x1bca0, 0x1bca3⟩,
    ⟨0x1d173, 0x1d17a⟩, ⟨0xe0000, 0xe0fff⟩]
  ascending := by decide +kernel

/-- Whether the character is ignored by default. -/
def isIgnorable (c : Char) : Bool :=
  ignorables.contains c.toNat

end Lexicon.Text
