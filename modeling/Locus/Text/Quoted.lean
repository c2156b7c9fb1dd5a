import Locus.Text.Printable

/-!
# Quoted text

Text is quoted so that it can be read on one line. Single quotes enclose it
unless it has single quotes and no double ones. The quote in use and the
backslash are escaped by a backslash, line ends and tabs by their letters, and
other characters that are not printable by their hexadecimal code, in the
shortest of the forms with two, four and eight digits. Bytes are quoted like
the characters of their codes, where only those of the first half of the codes
can be printable, and are told from text by a letter before the quote.
-/

namespace Locus
namespace Text

/-- The single quote. -/
def singleQuote : Char := '\x27'

/-- The double quote. -/
def doubleQuote : Char := '\x22'

/-- The backslash. -/
def backslash : Char := '\x5c'

/-- A number in hexadecimal, filled up with zeros to the given width. -/
def hexadecimal (width number : Nat) : List Char :=
  (Nat.toDigits 16 number).leftpad width '0'

/-- The hexadecimal escape of a character. -/
def escapeCode (character : Char) : List Char :=
  let code := character.toNat
  if code < 0x100 then backslash :: 'x' :: hexadecimal 2 code
  else if code < 0x10000 then backslash :: 'u' :: hexadecimal 4 code
  else backslash :: 'U' :: hexadecimal 8 code

/-- A character as it stands between quotes. -/
def escape (quote character : Char) : List Char :=
  if character = quote ∨ character = backslash then [backslash, character]
  else if character = '\n' then [backslash, 'n']
  else if character = '\r' then [backslash, 'r']
  else if character = '\t' then [backslash, 't']
  else if isPrintable character then [character]
  else escapeCode character

/-- The quote that encloses a text. -/
def chooseQuote (text : List Char) : Char :=
  if singleQuote ∈ text ∧ doubleQuote ∉ text then doubleQuote else singleQuote

/-- The text in quotes. -/
def quoted (text : String) : String :=
  let quote := chooseQuote text.toList
  .ofList (quote :: text.toList.flatMap (escape quote) ++ [quote])

/-- A byte as it stands between quotes. -/
def escapeByte (quote : Char) (byte : UInt8) : List Char :=
  let character := Char.ofNat byte.toNat
  if byte.toNat < 0x80 then escape quote character else escapeCode character

/-- The bytes in quotes. -/
def quotedBytes (bytes : List UInt8) : String :=
  let quote := chooseQuote (bytes.map fun byte => Char.ofNat byte.toNat)
  .ofList ('b' :: quote :: bytes.flatMap (escapeByte quote) ++ [quote])

end Text
end Locus
