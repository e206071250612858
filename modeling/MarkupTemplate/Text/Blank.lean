import MarkupTemplate.Text.Basic

/-!
# Blanks

White space in the sense of the Unicode bidirectional and separator classes: the ASCII controls from
tab to carriage return, the four information separators, the space, next line, and the spaces and
separators beyond ASCII. Trimming removes blanks from the ends of a text and nothing else.
-/

namespace MarkupTemplate

def isBlankCode (n : Nat) : Bool :=
  (9 ≤ n && n ≤ 13) || (28 ≤ n && n ≤ 32) || n == 0x85 || n == 0xA0 || n == 0x1680 ||
    (0x2000 ≤ n && n ≤ 0x200A) || n == 0x2028 || n == 0x2029 || n == 0x202F || n == 0x205F ||
    n == 0x3000

def isBlank (c : Char) : Bool :=
  isBlankCode c.toNat

namespace Text

def trimStart (s : Text) : Text :=
  s.dropWhile isBlank

def trimEnd (s : Text) : Text :=
  (s.reverse.dropWhile isBlank).reverse

def trim (s : Text) : Text :=
  trimEnd (trimStart s)

theorem trimStart_cons_of_not_blank {s : Text} {c : Char} (h : isBlank c = false) :
    trimStart (c :: s) = c :: s := by
  simp [trimStart, h]

end Text

end MarkupTemplate
