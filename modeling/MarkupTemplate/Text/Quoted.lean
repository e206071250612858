import MarkupTemplate.Text.Printable

/-!
# Quoted text

The form in which reports show a text: between quotes, with quotes, backslashes and line breaks
escaped and every unprintable character written as a hexadecimal code. Single quotes are used unless
the text has a single quote and no double quote.
-/

namespace MarkupTemplate.Text

def hexDigit (n : Nat) : Char :=
  if n < 10 then Char.ofNat (48 + n) else Char.ofNat (87 + n)

def hex : Nat → Nat → Text
  | 0, _ => []
  | width + 1, n => hex width (n / 16) ++ [hexDigit (n % 16)]

def codeEscape (n : Nat) : Text :=
  if n < 0x100 then '\\' :: 'x' :: hex 2 n
  else if n < 0x10000 then '\\' :: 'u' :: hex 4 n
  else '\\' :: 'U' :: hex 8 n

def quoteMark (s : Text) : Char :=
  if '\'' ∈ s ∧ '"' ∉ s then '"' else '\''

def quotedChar (mark c : Char) : Text :=
  if c = mark || c = '\\' then ['\\', c]
  else if c = '\n' then ['\\', 'n']
  else if c = '\r' then ['\\', 'r']
  else if c = '\t' then ['\\', 't']
  else if isPrintable c then [c]
  else codeEscape c.toNat

def quoted (s : Text) : Text :=
  quoteMark s :: s.flatMap (quotedChar (quoteMark s)) ++ [quoteMark s]

end MarkupTemplate.Text
