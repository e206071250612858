import MarkupTemplate.Asset
import MarkupTemplate.Text.Blank

/-!
# Injecting assets into a page

Style sheets and head scripts go before the first closing head tag of a page, body scripts before the
first closing body tag, one line each. Where the tag is missing the lines are dropped. The body lines
go into the page that already has the head lines.
-/

namespace MarkupTemplate

namespace Injection

def closesHere (name s : Text) : Bool :=
  match List.isPrefixOf? ['<', '/'] s with
  | some s =>
    match Text.dropWord? name s with
    | some (_, c :: rest) => (isBlank c || c == '/' || c == '>') && (c :: rest).contains '>'
    | _ => false
  | none => false

def splitAtClosing? (name : Text) : Text → Option (Text × Text)
  | [] => none
  | c :: s =>
    if closesHere name (c :: s) then some ([], c :: s)
    else (splitAtClosing? name s).map fun (before, rest) => (c :: before, rest)

def linesText (lines : List Text) : Text :=
  lines.flatMap (· ++ ['\n'])

def insertBefore? (name : Text) (lines : List Text) (s : Text) : Option Text :=
  (splitAtClosing? name s).map fun (before, rest) => before ++ linesText lines ++ rest

structure Result where
  text : Text
  dropped : Nat

def insert (name : Text) (lines : List Text) (s : Text) : Result :=
  match lines with
  | [] => ⟨s, 0⟩
  | _ =>
    match insertBefore? name lines s with
    | some text => ⟨text, 0⟩
    | none => ⟨s, lines.length⟩

end Injection

namespace Assets

def headLines (assets : Assets) : List Text :=
  (assets.stylesheets ++ assets.scripts (some Declaration.headSlot)).map (·.declaration.html)

def bodyLines (assets : Assets) : List Text :=
  (assets.scripts (some Declaration.bodySlot)).map (·.declaration.html)

/-- The page with all assets in it, and how many found no place. -/
def inject (assets : Assets) (page : Text) : Injection.Result :=
  let head := Injection.insert "head".toList assets.headLines page
  let body := Injection.insert "body".toList assets.bodyLines head.text
  ⟨body.text, head.dropped + body.dropped⟩

def tagCount (assets : Assets) : Nat :=
  assets.headLines.length + assets.bodyLines.length

end Assets

end MarkupTemplate
