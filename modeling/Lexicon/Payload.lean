import Lexicon.Text.Quoted

/-!
# Payloads

The values that labels stand for where a label set is given as data: integers, texts and truth
values. A payload has a plain form, which goes into source text, and a quoted form, which goes into
listings; they differ for texts only.
-/

namespace Lexicon

/-- A value that a label stands for. -/
inductive Payload where
  | int (n : Int)
  | text (s : String)
  | bool (b : Bool)
deriving DecidableEq

namespace Payload

/-- The value as it is. -/
def plain : Payload → String
  | int n => toString n
  | text s => s
  | bool b => toString b

/-- The value with texts as string literals, in which the characters that are `alone` are written as
themselves. -/
def quotedBy (alone : Char → Bool) : Payload → String
  | text s => Text.quoteStringBy alone s
  | payload => payload.plain

/-- The value with texts as string literals. -/
def quoted (payload : Payload) : String := payload.quotedBy Text.Quoted.standsAlone

end Payload

end Lexicon
