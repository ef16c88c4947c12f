import ClassDump.Bytes
import ClassDump.Text.Digit
import ClassDump.Text.Printable

/-! Quoted text, as error messages show it: between single quotes, or between double quotes where the text has
a single quote and no double one, with escapes for the quote, the backslash and whatever is not printable.
Byte strings are quoted alike, after a leading b. -/

namespace ClassDump.Text

namespace Quoted

/-- The quotation mark for a text: the double one exactly if the single one occurs and the double does not. -/
def mark (text : List Char) : Char :=
  if text.contains '\x27' && !text.contains '\x22' then '\x22' else '\x27'

/-- The escape of a code point that has no visible form, in the shortest of its three widths. -/
def escapeCode (code : Nat) : List Char :=
  if code < 0x100 then '\\' :: 'x' :: hexDigits 2 code
  else if code < 0x10000 then '\\' :: 'u' :: hexDigits 4 code
  else '\\' :: 'U' :: hexDigits 8 code

/-- How one character is written between the given quotation marks. -/
def character (quote c : Char) : List Char :=
  if c = quote || c = '\\' then ['\\', c]
  else if c = '\t' then ['\\', 't']
  else if c = '\n' then ['\\', 'n']
  else if c = '\r' then ['\\', 'r']
  else if isPrintable c then [c]
  else escapeCode c.toNat

/-- How one byte is written between the given quotation marks. -/
def byte (quote : Char) (b : UInt8) : List Char :=
  if b < 0x7F then character quote (Char.ofNat b.toNat) else '\\' :: 'x' :: hexDigits 2 b.toNat

end Quoted

/-- The text between quotation marks, escaped. -/
def quote (text : String) : String :=
  let chars := text.toList
  let mark := Quoted.mark chars
  String.ofList (mark :: chars.flatMap (Quoted.character mark) ++ [mark])

/-- The byte string between quotation marks, escaped, after a leading b. -/
def quoteBytes (data : Bytes) : String :=
  let mark := Quoted.mark (data.map fun b => Char.ofNat b.toNat)
  String.ofList ('b' :: mark :: data.flatMap (Quoted.byte mark) ++ [mark])

/-- The items, already in written form, between square brackets. -/
def bracketed (items : List String) : String :=
  "[" ++ ", ".intercalate items ++ "]"

/-- The quoted texts between square brackets. -/
def quoteList (texts : List String) : String :=
  bracketed (texts.map quote)

end ClassDump.Text
