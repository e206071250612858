import MarkupTemplate.Asset
import MarkupTemplate.Node
import MarkupTemplate.Render.Marker

/-!
# Rendering the tree

Children are rendered before the element around them. A load element declares an asset and leaves
nothing in the page; an unload element leaves a comment; a block element stands for its children
alone. A loop directive encloses the element, and a cond directive stands inside the loop. An element
that carries the name of a leaf cannot be rendered.

Rendering declares assets on the way and may fail. The declarations made before a failure remain, so
the outcome is kept beside them.

Elements inside one another are rendered by calls inside one another, and these take up stack. Where it
is bounded, an element that finds none left cannot be rendered.
-/

namespace MarkupTemplate

/-- The assets declared while something was rendered, and what came of it. -/
structure Rendered (α : Type) where
  declared : List Declaration
  outcome : Except Failure α

namespace Rendered

variable {α β : Type}

def pure (a : α) : Rendered α :=
  ⟨[], .ok a⟩

def bind (x : Rendered α) (f : α → Rendered β) : Rendered β :=
  match x.outcome with
  | .ok a =>
    let y := f a
    ⟨x.declared ++ y.declared, y.outcome⟩
  | .error e => ⟨x.declared, .error e⟩

def ofExcept (x : Except TemplateError α) : Rendered α :=
  ⟨[], x.mapError .template⟩

end Rendered

/-- How many more elements may be rendered inside one another. -/
inductive Stack
  | unbounded
  | levels (left : Nat)
deriving DecidableEq

def Stack.push? : Stack → Option Stack
  | unbounded => some unbounded
  | levels 0 => none
  | levels (left + 1) => some (levels left)

namespace Render

def condAttribute : Text :=
  "cond".toList

def loopAttribute : Text :=
  "loop".toList

def directive (name element : Text) (attributes : Attributes) : Except TemplateError Text :=
  match attributes.lookup name with
  | some (.text value) =>
    match Text.trim value with
    | [] => .error (.missingExpression name element)
    | expr => Code.checked expr
  | _ => .error (.missingExpression name element)

def loopDirective (element : Text) (attributes : Attributes) : Except TemplateError Loop := do
  Loop.read (← directive loopAttribute element attributes)

def target (element : Text) (attributes : Attributes) : Except TemplateError Text :=
  match attributes.lookup "target".toList with
  | some (.text value) =>
    match Text.trim value with
    | [] => .error (.missingTarget element)
    | target => .ok target
  | _ => .error (.missingTarget element)

def media (attributes : Attributes) : Except Absence Text :=
  match attributes.lookup "media".toList with
  | some (.text value) =>
    match Text.trim value with
    | [] => .ok Declaration.defaultMedia
    | media => .ok media
  | some .missing => .error .value
  | some .flag | none => .ok Declaration.defaultMedia

def slot (attributes : Attributes) : Except Absence Text :=
  match attributes.lookup "type".toList with
  | some (.text value) => .ok (Text.lower (Text.trim value))
  | some .missing => .error .value
  | some .flag | none => .ok Declaration.headSlot

def styleSheet (target : Text) (index : Int) (attributes : Attributes) :
    Except Failure Declaration :=
  match media attributes with
  | .error e => .error (.absent e)
  | .ok media => .ok ⟨.css, target, index, some media, some Declaration.headSlot⟩

def script (target : Text) (index : Int) (attributes : Attributes) : Except Failure Declaration :=
  match slot attributes with
  | .error e => .error (.absent e)
  | .ok slot =>
    if slot = Declaration.headSlot ∨ slot = Declaration.bodySlot then
      .ok ⟨.js, target, index, some Declaration.defaultMedia, some slot⟩
    else .error (.template (.unsupportedSlot slot target))

def declaration (target : Text) (index : Int) (attributes : Attributes) :
    Except Failure Declaration :=
  match AssetKind.ofLabel? (targetExtension target) with
  | some .css => styleSheet target index attributes
  | some .js => script target index attributes
  | none => .error (.template (.unsupportedLoad (targetExtension target) target))

def load (element : Text) (attributes : Attributes) : Except Failure Declaration :=
  match target element attributes with
  | .error e => .error (.template e)
  | .ok target =>
    match readIndex (attributes.lookup "index".toList) with
    | .error e => .error (.tooManyDigits e)
    | .ok index => declaration target index attributes

def unload (element : Text) (attributes : Attributes) : Except TemplateError Page := do
  let target ← target element attributes
  match AssetKind.ofLabel? (targetExtension target) with
  | some _ => .ok [.markup ("<!-- Unload: ".toList ++ Text.escape target ++ " -->".toList)]
  | none => .error (.unsupportedUnload (targetExtension target) target)

def blockBody (data : Text) : Text :=
  let body := (List.isPrefixOf? ['{', '@'] data).getD data
  if List.isSuffixOf ['}'] body then body.dropLast else body

/-- A comment up to the first double slash, and nothing where that leaves nothing. -/
def comment (data : Text) : Page :=
  match (Text.partition ['/', '/'] data).1 with
  | [] => []
  | content => [.markup ("<!--".toList ++ content ++ "-->".toList)]

def plain (name : Text) (attributes : Attributes) (skip : List Text) (inner : Page) : Page :=
  if isVoid name then [.markup (startTag name attributes skip)]
  else .markup (startTag name attributes skip) :: inner ++ [.markup (endTag name)]

def onLines (body : Page) : Page :=
  Page.lineBreak :: body ++ [Page.lineBreak]

def guarded (name : Text) (attributes : Attributes) (layout : Page → Page) (body : Page) :
    Except TemplateError Page :=
  if attributes.has condAttribute then
    (directive condAttribute name attributes).map fun condition =>
      Page.conditional condition (layout body)
  else .ok body

/-- A block: its children alone, with its directives around them on lines of their own. -/
def fragment (name : Text) (attributes : Attributes) (inner : Page) : Except TemplateError Page :=
  if attributes.has loopAttribute then do
    let loop ← loopDirective name attributes
    let body ← guarded name attributes onLines inner
    .ok (onLines (Page.looping loop body))
  else if attributes.has condAttribute then
    (guarded name attributes onLines inner).map onLines
  else .ok inner

def ordinary (name : Text) (attributes : Attributes) (inner : Page) : Except TemplateError Page :=
  if attributes.has loopAttribute then do
    let loop ← loopDirective name attributes
    let body ← guarded name attributes id
      (plain name attributes [loopAttribute, condAttribute] inner)
    .ok (Page.looping loop body)
  else if attributes.has condAttribute then
    (guarded name attributes id (plain name attributes [condAttribute] inner)).map onLines
  else .ok (plain name attributes [] inner)

def isFragment (name : Text) : Bool :=
  Text.lower name == "block".toList

def element (name : Text) (attributes : Attributes) (inner : Page) : Rendered Page :=
  if isLoad name then
    match load name attributes with
    | .ok d => ⟨[d], .ok []⟩
    | .error e => ⟨[], .error e⟩
  else if isUnload name then .ofExcept (unload name attributes)
  else if isFragment name then .ofExcept (fragment name attributes inner)
  else .ofExcept (ordinary name attributes inner)

end Render

mutual

def renderOn (stack : Stack) : Node → Rendered Page
  | .text data => .ofExcept (renderText data)
  | .comment data => .pure (Render.comment data)
  | .code data => .ofExcept (Marker.hostCode (Render.blockBody data))
  | .element name attributes children =>
    if Node.leafNames.contains name then ⟨[], .error (.absent .data)⟩
    else
      match stack.push? with
      | none => ⟨[], .error .tooDeep⟩
      | some inside => (renderAllOn inside children).bind (Render.element name attributes)

def renderAllOn (stack : Stack) : List Node → Rendered Page
  | [] => .pure []
  | node :: nodes =>
    (renderOn stack node).bind fun page =>
      (renderAllOn stack nodes).bind fun rest => .pure (page ++ rest)

end

def render (node : Node) : Rendered Page :=
  renderOn .unbounded node

def renderAll (nodes : List Node) : Rendered Page :=
  renderAllOn .unbounded nodes

theorem render_text (data : Text) : render (.text data) = .ofExcept (renderText data) := by
  rw [render, renderOn]

theorem render_comment (data : Text) : render (.comment data) = .pure (Render.comment data) := by
  rw [render, renderOn]

theorem render_code (data : Text) :
    render (.code data) = .ofExcept (Marker.hostCode (Render.blockBody data)) := by
  rw [render, renderOn]

theorem render_element (name : Text) (attributes : Attributes) (children : List Node) :
    render (.element name attributes children) =
      if Node.leafNames.contains name then ⟨[], .error (.absent .data)⟩
      else (renderAll children).bind (Render.element name attributes) := by
  rw [render, renderOn]
  rfl

theorem renderAll_nil : renderAll [] = .pure [] := by
  rw [renderAll, renderAllOn]

theorem renderAll_cons (node : Node) (nodes : List Node) :
    renderAll (node :: nodes) =
      (render node).bind fun page => (renderAll nodes).bind fun rest => .pure (page ++ rest) := by
  rw [renderAll, renderAllOn]
  rfl

end MarkupTemplate
