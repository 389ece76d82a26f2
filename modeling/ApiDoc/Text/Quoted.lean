import ApiDoc.Text.Basic
import ApiDoc.Text.Printable

/-!
# Quoted text

The way a message shows a text exactly: between quotes, with escapes for the quote in use, the
backslash and everything unprintable. A text that holds an apostrophe and no double quote stands
between double quotes, every other text between apostrophes.
-/

namespace ApiDoc.Text

/-- The quote that a text is put between. -/
def quoteFor (t : Text) : Char :=
  if t.contains '\'' && !t.contains '"' then '"' else '\''

/-- One character inside quotes. -/
def escapeIn (quote : Char) (c : Char) : Text :=
  if c = quote || c = '\\' then ['\\', c]
  else if c = '\t' then ['\\', 't']
  else if c = '\n' then ['\\', 'n']
  else if c = '\r' then ['\\', 'r']
  else if isPrintable c then [c]
  else if c.toNat < 0x100 then '\\' :: 'x' :: ofHex 2 c.toNat
  else if c.toNat < 0x10000 then '\\' :: 'u' :: ofHex 4 c.toNat
  else '\\' :: 'U' :: ofHex 8 c.toNat

/-- A text between quotes. -/
def quoted (t : Text) : Text :=
  let quote := quoteFor t
  quote :: t.flatMap (escapeIn quote) ++ [quote]

end ApiDoc.Text
