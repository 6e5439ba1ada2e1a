import BacktrackRegex.Text.Escaped

/-!
# Quoted characters and strings

How a character or a string is written between quotes: the quote itself and the backslash behind a
backslash, five controls by letter, whatever would not show as itself by its number, and all else
as it is.
-/

namespace BacktrackRegex

namespace Text

/-- The lower-case hexadecimal digits of a number. -/
def hexadecimal (n : Nat) : String :=
  String.ofList (Nat.toDigits 16 n)

/-- How a character is written between two marks `quote`. -/
def escape (quote c : Char) : String :=
  if c = '\x00' then "\\0"
  else if c = '\t' then "\\t"
  else if c = '\r' then "\\r"
  else if c = '\n' then "\\n"
  else if c = '\\' then "\\\\"
  else if c = quote then "\\" ++ quote.toString
  else if isEscaped c then "\\u\x7b" ++ hexadecimal c.toNat ++ "\x7d"
  else c.toString

/-- A character between single quotes. -/
def quoteChar (c : Char) : String :=
  "'" ++ escape '\'' c ++ "'"

/-- A string between double quotes. -/
def quoteString (s : String) : String :=
  s.toList.foldl (fun written c => written ++ escape '"' c) "\"" ++ "\""

end Text

end BacktrackRegex
