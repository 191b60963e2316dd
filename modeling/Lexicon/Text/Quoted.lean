import Lexicon.Text.GraphemeExtend
import Lexicon.Text.Ignorable
import Lexicon.Text.Unprintable

/-!
# Quoted characters and texts

The written form of a character literal and of a string literal: the content between two
delimiters, with everything that could not be read there written as an escape. Characters that
attach to the one before them, are ignored by default or have no printed form are written by their
code point, as `\u{301}`.
-/

namespace Lexicon.Text

namespace Quoted

/-- Opens and closes a character literal. -/
def charDelimiter : Char := '\x27'

/-- Opens and closes a string literal. -/
def stringDelimiter : Char := '\x22'

/-- The halfwidth voiced and semi-voiced sound marks of Katakana. They extend a grapheme as their
combining counterparts do, but are printed in a place of their own. -/
def isHalfwidthSoundMark (c : Char) : Bool :=
  c = '\uff9e' || c = '\uff9f'

/-- Whether the character is printed on top of the one before it. -/
def attaches (c : Char) : Bool :=
  extendsGrapheme c && !isHalfwidthSoundMark c

/-- Whether the character can be written as itself. -/
def standsAlone (c : Char) : Bool :=
  !attaches c && !isIgnorable c && !isUnprintable c

/-- The escape of a character by its code point: hexadecimal digits in braces. -/
def codePoint (c : Char) : List Char :=
  ['\\', 'u', '\x7b'] ++ Nat.toDigits 16 c.toNat ++ ['\x7d']

/-- The form of one character in a literal that `delimiter` closes. Where no short escape is due the
character is written as itself if it stands `alone`. -/
def encode (alone : Char → Bool) (delimiter c : Char) : List Char :=
  if c = '\x00' then ['\\', '0']
  else if c = '\t' then ['\\', 't']
  else if c = '\r' then ['\\', 'r']
  else if c = '\n' then ['\\', 'n']
  else if c = '\\' then ['\\', '\\']
  else if c = delimiter then ['\\', delimiter]
  else if alone c then [c]
  else codePoint c

/-- A literal: the encoded characters between two delimiters. -/
def literal (alone : Char → Bool) (delimiter : Char) (cs : List Char) : List Char :=
  delimiter :: (cs.flatMap (encode alone delimiter) ++ [delimiter])

end Quoted

/-- The character literal of a character, with the characters that are `alone` written as
themselves. -/
def quoteCharBy (alone : Char → Bool) (c : Char) : String :=
  String.ofList (Quoted.literal alone Quoted.charDelimiter [c])

/-- The string literal of a text, with the characters that are `alone` written as themselves. -/
def quoteStringBy (alone : Char → Bool) (s : String) : String :=
  String.ofList (Quoted.literal alone Quoted.stringDelimiter s.toList)

/-- The character literal of a character. -/
def quoteChar (c : Char) : String := quoteCharBy Quoted.standsAlone c

end Lexicon.Text
