import MarkupTemplate.Attribute
import MarkupTemplate.Text.Blank
import MarkupTemplate.Text.Literal

/-!
# Tags

What the text of a tag says: the name, the attributes, and whether the tag closes an element or
closes itself. Reading never fails. A tag whose name cannot be read, such as a document type or a
stray angle bracket, has the empty name; a tag cut short by the end of the source is read as far as
it goes.

Attribute values stand between quotes, where a backslash takes the next character with it, or bare up
to a character that cannot belong to them. A quote that is never closed leaves its attribute without
a value, and reading goes on after the name.
-/

namespace MarkupTemplate

structure Tag where
  name : Text
  attributes : Attributes
  closing : Bool
  selfClosing : Bool
deriving DecidableEq

namespace Tag

def isNameChar (c : Char) : Bool :=
  ('a' ≤ c && c ≤ 'z') || ('A' ≤ c && c ≤ 'Z') || ('0' ≤ c && c ≤ '9') ||
    c == ':' || c == '_' || c == '-'

def isBareChar (c : Char) : Bool :=
  !(isBlank c || ['"', '\'', '=', '<', '>', '\x60'].contains c)

def value? : Text → Option (Text × Text)
  | '"' :: s => Text.literal? '"' s
  | '\'' :: s => Text.literal? '\'' s
  | s =>
    match s.takeWhile isBareChar with
    | [] => none
    | value => some (value, s.dropWhile isBareChar)

def assigned? (s : Text) : Option (Text × Text) :=
  match Text.trimStart s with
  | '=' :: s => value? (Text.trimStart s)
  | _ => none

def attributeRest (s : Text) : AttributeValue × Text :=
  match assigned? s with
  | some (value, rest) => (.text value, rest)
  | none => (.flag, s)

theorem length_value? {s value rest : Text} (h : value? s = some (value, rest)) :
    rest.length ≤ s.length := by
  unfold value? at h
  split at h
  · have := Text.length_literal? h
    simp only [List.length_cons]
    omega
  · have := Text.length_literal? h
    simp only [List.length_cons]
    omega
  · split at h
    · simp at h
    · cases h
      exact Text.length_dropWhile_le _ _

theorem length_attributeRest (s : Text) : (attributeRest s).2.length ≤ s.length := by
  unfold attributeRest
  split
  · next h =>
    unfold assigned? at h
    split at h
    · next s' hs =>
      have h₁ := length_value? h
      have h₂ := Text.length_dropWhile_le isBlank s'
      have h₃ := Text.length_dropWhile_le isBlank s
      simp only [Text.trimStart] at *
      simp only [hs, List.length_cons] at h₃
      omega
    · simp at h
  · exact Nat.le_refl _

/-- The attributes written in `s`, left to right, repetitions included. -/
def attributeItems (s : Text) : List (Text × AttributeValue) :=
  match _h : s.dropWhile (!isNameChar ·) with
  | [] => []
  | c :: s' =>
    let value := attributeRest ((c :: s').dropWhile isNameChar)
    ((c :: s').takeWhile isNameChar, value.1) :: attributeItems value.2
termination_by s.length
decreasing_by
  have h₁ := length_attributeRest ((c :: s').dropWhile isNameChar)
  have hc : isNameChar c = true := by
    have := List.head_dropWhile_not (p := (!isNameChar ·)) (l := s) (by simp [_h])
    simpa [_h] using this
  have h₂ : ((c :: s').dropWhile isNameChar).length ≤ s'.length := by
    simpa [List.dropWhile, hc] using Text.length_dropWhile_le isNameChar s'
  have h₃ := Text.length_dropWhile_le (!isNameChar ·) s
  simp only [_h, List.length_cons] at h₃
  omega

def splitFinalLineFeed (s : Text) : Text × Text :=
  match s.reverse with
  | '\n' :: r => (r.reverse, ['\n'])
  | _ => (s, [])

def tail? (s : Text) : Option (Bool × Text) :=
  match s.reverse with
  | '>' :: r =>
    match Text.trimStart r with
    | '/' :: r => some (true, r.reverse)
    | r => some (false, r.reverse)
  | _ => none

/-- Whether `s` ends in a slash and a bracket, and `s` without that end. A final line feed does not
count and stays. -/
def dropTail (s : Text) : Bool × Text :=
  match tail? (splitFinalLineFeed s).1 with
  | some (slash, body) => (slash, body ++ (splitFinalLineFeed s).2)
  | none => (false, s)

def opening? (raw : Text) : Option (Bool × Text) :=
  match raw with
  | '<' :: s =>
    match Text.trimStart s with
    | '/' :: s => some (true, Text.trimStart s)
    | s => some (false, s)
  | _ => none

def read (raw : Text) : Tag :=
  let closing := (opening? raw).any (·.1)
  let body := ((opening? raw).map (·.2)).getD []
  let name := body.takeWhile isNameChar
  let rest := if name.isEmpty then raw.dropWhile (· == '<') else body.dropWhile isNameChar
  { name
    attributes := if closing then [] else .ofList (attributeItems (dropTail rest).2)
    closing
    selfClosing := (dropTail raw).1 }

def describe (tag : Tag) : Text :=
  '<' :: (if tag.closing then "end:".toList else "start:".toList) ++ tag.name ++
    tag.attributes.flatMap (fun
      | (name, .flag) => ' ' :: name
      | (name, value) => ' ' :: name ++ ['='] ++ value.describe) ++
    (if tag.selfClosing then " /".toList else []) ++ ['>']

end Tag

end MarkupTemplate
