import MarkupTemplate.Error
import MarkupTemplate.Node

/-!
# Nodes made by hand

An arena holds nodes that are put together one by one. A node is known by its place in the arena; it
has a label, its children in the order in which they were appended, and its parent once it has one. A
node may be appended only once, and only to a document or an element. Every call leaves an arena, also
one that is refused.

Appending keeps no node from becoming its own descendant, so the tree below a node is read to the
depth that a finite tree in the arena can have.

Not every node has all that is asked of it. Only elements have a tag name. An outline shows no document
below its first line, and no element that carries the name of a leaf.
-/

namespace MarkupTemplate

namespace Arena

inductive Content
  | document
  | node (label : Node.Label)
deriving DecidableEq

def Content.name : Content → Text
  | document => "#document".toList
  | node label => label.name

def Content.kind : Content → Text
  | document => "DocumentNode".toList
  | node (.element ..) => "ElementNode".toList
  | node (.text _) => "TextNode".toList
  | node (.comment _) => "CommentNode".toList
  | node (.code _) => "RawCodeNode".toList

def Content.tagName : Content → Except Absence Text
  | node (.element name _) => .ok (Text.lower name)
  | content => .error (.tagName content.kind)

def Content.absence? : Content → Option Absence
  | document => some .attributes
  | node (.element name _) => if Node.leafNames.contains name then some .data else none
  | node _ => none

def Content.isLeaf : Content → Bool
  | document | node (.element ..) => false
  | node _ => true

structure Cell where
  content : Content
  children : List Nat
  parent : Option Nat
deriving DecidableEq

inductive Refusal
  | emptyName
  | leafParent (name : Text)
  | alreadyOwned (child parent : Text)
  | unknownNode
deriving DecidableEq

def Refusal.message : Refusal → Text
  | emptyName =>
    "Empty tag name passed to ElementNode (bug: tokenizer produced a nameless tag)".toList
  | leafParent name => name ++ " nodes cannot have children".toList
  | alreadyOwned child parent => child ++ " already belongs to ".toList ++ parent
  | unknownNode => "no such node".toList

end Arena

structure Arena where
  cells : List Arena.Cell

namespace Arena

def empty : Arena :=
  ⟨[]⟩

def cell? (arena : Arena) (id : Nat) : Option Cell :=
  arena.cells[id]?

def name (arena : Arena) (id : Nat) : Text :=
  ((arena.cell? id).map (·.content.name)).getD []

/-- The arena after a node was asked for, and the node, which has neither children nor parent. -/
def new (arena : Arena) (content : Content) : Arena × Except Refusal Nat :=
  if content.name.isEmpty then (arena, .error .emptyName)
  else (⟨arena.cells ++ [⟨content, [], none⟩]⟩, .ok arena.cells.length)

def link (arena : Arena) (parent child : Nat) : Arena :=
  ⟨(arena.cells.modify child fun cell => { cell with parent := some parent }).modify parent
    fun cell => { cell with children := cell.children ++ [child] }⟩

def append (arena : Arena) (parent child : Nat) : Arena × Except Refusal Unit :=
  match arena.cell? parent, arena.cell? child with
  | some p, some c =>
    if p.content.isLeaf then (arena, .error (.leafParent p.content.name))
    else
      match c.parent with
      | some owner => (arena, .error (.alreadyOwned c.content.name (arena.name owner)))
      | none => (arena.link parent child, .ok ())
  | _, _ => (arena, .error .unknownNode)

def describeAttributes (attributes : Attributes) : Text :=
  "\x7b".toList ++ List.intercalate [',', ' '] (attributes.map fun (name, value) =>
    Text.quoted name ++ [':', ' '] ++ value.describe) ++ "\x7d".toList

def Cell.describe (cell : Cell) : Text :=
  match cell.content with
  | .document => describeDocument cell.children.length
  | .node (.element name attributes) =>
    '<' :: cell.content.kind ++ [' '] ++ name ++ " attrs=".toList ++
      describeAttributes attributes ++ " children=".toList ++ Text.ofNat cell.children.length ++ ['>']
  | .node (.text data) | .node (.comment data) | .node (.code data) =>
    '<' :: cell.content.kind ++ [' '] ++ Text.quoted data ++ ['>']

/-- The nodes that stand for `id` in a tree: a node with its subtree, or what a document holds. An
element that carries the name of the document stands for its children too where `transparent` is
set. -/
def nodesAt (arena : Arena) (transparent : Bool) : Nat → Nat → List Node
  | 0, _ => []
  | depth + 1, id =>
    match arena.cell? id with
    | none => []
    | some cell =>
      let children := cell.children.flatMap (nodesAt arena transparent depth)
      match cell.content with
      | .document => children
      | .node (.element name attributes) =>
        if transparent && name = Content.document.name then children
        else [.element name attributes children]
      | .node (.text data) => [.text data]
      | .node (.comment data) => [.comment data]
      | .node (.code data) => [.code data]

def tree (arena : Arena) (id : Nat) : Document :=
  arena.nodesAt true (arena.cells.length + 1) id

def contentsAt (arena : Arena) : Nat → Nat → List Content
  | 0, _ => []
  | depth + 1, id =>
    match arena.cell? id with
    | none => []
    | some cell => cell.content :: cell.children.flatMap (contentsAt arena depth)

def outlineAll (arena : Arena) (indent : Int) (ids : List Nat) : Except Absence Text :=
  let depth := arena.cells.length + 1
  match (ids.flatMap (arena.contentsAt depth)).findSome? Content.absence? with
  | some absence => .error absence
  | none =>
    .ok (List.intercalate ['\n']
      (Node.outlineLinesAll indent (ids.flatMap (arena.nodesAt false depth))))

/-- The outline of a node. The document is shown as its children, without indentation. -/
def outline (arena : Arena) (indent : Int) (id : Nat) : Except Absence Text :=
  match arena.cell? id with
  | none => .ok []
  | some cell =>
    if cell.content.name = Content.document.name then arena.outlineAll 0 cell.children
    else arena.outlineAll indent [id]

end Arena

end MarkupTemplate
