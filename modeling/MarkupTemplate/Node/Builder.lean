import MarkupTemplate.Diagnostic
import MarkupTemplate.Node
import MarkupTemplate.Token

/-!
# Building the tree

Tokens are taken one at a time. The builder holds the finished top-level nodes and the path of open
elements, innermost first, each with the children it has so far; an open element is the last child of
the one around it. A closing tag closes the nearest open element of its name, in any letter case, and
with it all that were opened inside; where there is none it is dropped. Void elements and asset
declarations are never open, and a tag without a name is text.

Building never fails. What it recovers from is noted where the builder was asked to collect.
-/

namespace MarkupTemplate

structure OpenElement where
  name : Text
  attributes : Attributes
  children : List Node

def OpenElement.close (e : OpenElement) : Node :=
  .element e.name e.attributes e.children

structure Builder where
  collect : Bool
  roots : List Node
  path : List OpenElement
  diagnostics : List Diagnostic

namespace Builder

def start (collect : Bool) : Builder :=
  ⟨collect, [], [], []⟩

def note (builder : Builder) (d : Diagnostic) : Builder :=
  if builder.collect then { builder with diagnostics := builder.diagnostics ++ [d] } else builder

def append (builder : Builder) (node : Node) : Builder :=
  match builder.path with
  | [] => { builder with roots := builder.roots ++ [node] }
  | inner :: outer =>
    { builder with path := { inner with children := inner.children ++ [node] } :: outer }

def enter (builder : Builder) (name : Text) (attributes : Attributes) : Builder :=
  { builder with path := ⟨name, attributes, []⟩ :: builder.path }

def leave (builder : Builder) : Builder :=
  match builder.path with
  | [] => builder
  | inner :: outer => { builder with path := outer }.append inner.close

def leaveTimes : Nat → Builder → Builder
  | 0, builder => builder
  | n + 1, builder => leaveTimes n builder.leave

def closedByTag (position : Nat) (name skipped : Text) : Diagnostic :=
  ⟨"unclosed-element".toList, some position,
    '<' :: skipped ++ "> closed implicitly by </".toList ++ name ++ ['>']⟩

def closedByEnd (skipped : Text) : Diagnostic :=
  ⟨"unclosed-element".toList, none,
    '<' :: skipped ++ "> closed implicitly at end of input".toList⟩

def unexpectedEndTag (position : Nat) (name : Text) : Diagnostic :=
  ⟨"unexpected-end-tag".toList, some position,
    "</".toList ++ name ++ "> has no matching open element".toList⟩

def noteAll (builder : Builder) (ds : List Diagnostic) : Builder :=
  ds.foldl note builder

/-- The open elements inside the nearest one named `name`, innermost first. -/
def insideOf? (name : Text) : List OpenElement → Option (List OpenElement)
  | [] => none
  | inner :: outer =>
    if Text.lower inner.name = Text.lower name then some []
    else (insideOf? name outer).map (inner :: ·)

def close (builder : Builder) (name : Text) (position : Nat) : Builder :=
  match insideOf? name builder.path with
  | some skipped =>
    (builder.noteAll (skipped.reverse.map fun e => closedByTag position name e.name)).leaveTimes
      (skipped.length + 1)
  | none => builder.note (unexpectedEndTag position name)

def addTag (builder : Builder) (raw : Text) (tag : Tag) (position : Nat) : Builder :=
  if tag.name.isEmpty then builder.append (.text raw)
  else if tag.closing then
    if isLoad tag.name || isUnload tag.name then builder else builder.close tag.name position
  else if tag.selfClosing || isChildless tag.name then
    builder.append (.element tag.name tag.attributes [])
  else builder.enter tag.name tag.attributes

def add (builder : Builder) (token : Token) : Builder :=
  match token.lexeme with
  | .text data => builder.append (.text data)
  | .comment data => builder.append (.comment data)
  | .code raw => builder.append (.code raw)
  | .tag raw tag => builder.addTag raw tag token.position

def addAll (builder : Builder) (tokens : List Token) : Builder :=
  tokens.foldl add builder

/-- Closes all that is open. More tokens may follow. -/
def finish (builder : Builder) : Builder :=
  (builder.noteAll (builder.path.reverse.map fun e => closedByEnd e.name)).leaveTimes builder.path.length

/-- The document as it would be if everything open were closed. -/
def document (builder : Builder) : Document :=
  (leaveTimes builder.path.length builder).roots

def openNames (builder : Builder) : List Text :=
  "#document".toList :: builder.path.reverse.map (·.name)

def currentName (builder : Builder) : Text :=
  match builder.path with
  | [] => "#document".toList
  | inner :: _ => inner.name

end Builder

def build (collect : Bool) (tokens : List Token) : Builder :=
  ((Builder.start collect).addAll tokens).finish

def documentOf (tokens : List Token) : Document :=
  (build false tokens).roots

end MarkupTemplate
