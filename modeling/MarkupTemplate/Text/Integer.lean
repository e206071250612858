import MarkupTemplate.Text.Blank
import MarkupTemplate.Text.DecimalDigit

/-!
# Reading integers

An integer is an optional sign and decimal digits of any script. Two readers are used: one takes the
integer at the head of a text and ignores what follows it, the other wants the whole text to be an
integer, with blanks around it and single underscores between digits allowed. Both refuse more than
4300 digits; leading zeros count.
-/

namespace MarkupTemplate.Text

def digitLimit : Nat := 4300

def ofDigits (digits : List Nat) : Nat :=
  digits.foldl (fun n d => 10 * n + d) 0

def leadingDigits : Text → List Nat
  | [] => []
  | c :: s =>
    match digitValue? c with
    | some d => d :: leadingDigits s
    | none => []

/-- Whether `s` begins with a minus sign, and what follows its sign. -/
def splitSign : Text → Bool × Text
  | '-' :: s => (true, s)
  | '+' :: s => (false, s)
  | s => (false, s)

def signed (negative : Bool) (n : Nat) : Int :=
  if negative then -(n : Int) else n

structure TooManyDigits where
  count : Nat
deriving DecidableEq

/-- The integer at the head of `s` after blanks, `0` where there is none. -/
def leadingInteger (s : Text) : Except TooManyDigits Int :=
  let (negative, rest) := splitSign (trimStart s)
  let digits := leadingDigits rest
  if digits.length > digitLimit then .error ⟨digits.length⟩
  else .ok (signed negative (ofDigits digits))

def groupedDigits? : Text → Option (List Nat)
  | [] => none
  | [c] => (digitValue? c).map ([·])
  | c :: '_' :: s =>
    match digitValue? c, groupedDigits? s with
    | some d, some ds => some (d :: ds)
    | _, _ => none
  | c :: s =>
    match digitValue? c, groupedDigits? s with
    | some d, some ds => some (d :: ds)
    | _, _ => none

/-- Blanks allowed around an integer: all but the four information separators. -/
def isMargin (c : Char) : Bool :=
  isBlank c && !(28 ≤ c.toNat && c.toNat ≤ 31)

def trimMargins (s : Text) : Text :=
  ((s.dropWhile isMargin).reverse.dropWhile isMargin).reverse

def integer? (s : Text) : Option Int :=
  let (negative, rest) := splitSign (trimMargins s)
  match groupedDigits? rest with
  | some digits =>
    if digits.length > digitLimit then none else some (signed negative (ofDigits digits))
  | none => none

end MarkupTemplate.Text
