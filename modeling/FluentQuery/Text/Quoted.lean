/-
  Quoted forms of texts, as they appear in messages: single quotes, or double quotes where that saves
  escaping, and escapes for whatever would not be visible.
-/
import FluentQuery.Text.Basic
import FluentQuery.Text.Printable

namespace FluentQuery.Text

/-- The lower-case hexadecimal digits of a number, with zeros in front up to a width. -/
def hex (width n : Nat) : Text := padLeft width '0' (ofChars (Nat.toDigits 16 n))

/-- A character as it stands inside the given quotes. -/
def quotedChar (quote c : CodePoint) : Text :=
  if c = quote || c = backslash then [backslash, c]
  else if c = '\n' then [backslash, 'n']
  else if c = '\r' then [backslash, 'r']
  else if c = '\t' then [backslash, 't']
  else if isPrintable c then [c]
  else if c.toNat < 0x100 then backslash :: 'x' :: hex 2 c.toNat
  else if c.toNat < 0x10000 then backslash :: 'u' :: hex 4 c.toNat
  else backslash :: 'U' :: hex 8 c.toNat

/-- The quote that needs the least escaping: double quotes for a text with single quotes only. -/
def quoteFor (text : Text) : CodePoint :=
  if singleQuote ∈ text && doubleQuote ∉ text then doubleQuote else singleQuote

/-- The text in quotes. -/
def quoted (text : Text) : Text :=
  let quote := quoteFor text
  quote :: text.flatMap (quotedChar quote) ++ [quote]

end FluentQuery.Text
