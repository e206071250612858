import MarkupTemplate.Attribute

/-!
# The tree of a template

A document is a list of nodes: text, comments, raw-code blocks, and elements with their children. The
label of a node is the node without its children; listing the labels in document order, each with its
depth, shows every node once. The outline is the same listing for people to read, attributes sorted
by name.
-/

namespace MarkupTemplate

inductive Node
  | text (data : Text)
  | comment (data : Text)
  | code (data : Text)
  | element (name : Text) (attributes : Attributes) (children : List Node)

abbrev Document := List Node

namespace Node

inductive Label
  | text (data : Text)
  | comment (data : Text)
  | code (data : Text)
  | element (name : Text) (attributes : Attributes)
deriving DecidableEq

def Label.name : Label → Text
  | text _ => "#text".toList
  | comment _ => "#comment".toList
  | code _ => "#raw".toList
  | element name _ => name

def leafNames : List Text :=
  ["#text", "#comment", "#raw"].map String.toList

def label : Node → Label
  | text data => .text data
  | comment data => .comment data
  | code data => .code data
  | element name attributes _ => .element name attributes

def children : Node → List Node
  | element _ _ children => children
  | _ => []

mutual

def listing (depth : Nat) : Node → List (Nat × Label)
  | text data => [(depth, .text data)]
  | comment data => [(depth, .comment data)]
  | code data => [(depth, .code data)]
  | element name attributes children =>
    (depth, .element name attributes) :: listingAll (depth + 1) children

def listingAll (depth : Nat) : List Node → List (Nat × Label)
  | [] => []
  | node :: nodes => listing depth node ++ listingAll depth nodes

end

def sortedByName (attributes : Attributes) : Attributes :=
  attributes.mergeSort fun a b => !List.lex b.1 a.1 fun c d => c.toNat < d.toNat

def outlineLine (indent : Int) (content : Text) : Text :=
  "| ".toList ++ List.replicate indent.toNat ' ' ++ content

mutual

def outlineLines (indent : Int) : Node → List Text
  | text data => [outlineLine indent ('"' :: data ++ ['"'])]
  | comment data => [outlineLine indent ("<!-- ".toList ++ data ++ " -->".toList)]
  | code data => [outlineLine indent data]
  | element name attributes children =>
    outlineLine indent ('<' :: name ++ ['>']) ::
      (sortedByName attributes).map (fun (name, value) =>
        outlineLine indent (' ' :: ' ' :: name ++ ['=', '"'] ++ value.outline ++ ['"'])) ++
      outlineLinesAll (indent + 2) children

def outlineLinesAll (indent : Int) : List Node → List Text
  | [] => []
  | node :: nodes => outlineLines indent node ++ outlineLinesAll indent nodes

end

def outline (indent : Int) (node : Node) : Text :=
  List.intercalate ['\n'] (outlineLines indent node)

end Node

namespace Document

def listing (document : Document) : List (Nat × Node.Label) :=
  Node.listingAll 0 document

def outline (document : Document) : Text :=
  List.intercalate ['\n'] (Node.outlineLinesAll 0 document)

end Document

def describeDocument (count : Nat) : Text :=
  "<DocumentNode children=".toList ++ Text.ofNat count ++ ['>']

def voidElements : List Text :=
  ["area", "base", "br", "col", "embed", "hr", "img", "input", "link", "meta", "param", "source",
    "track", "wbr"].map String.toList

def isVoid (name : Text) : Bool :=
  voidElements.contains (Text.lower name)

def isLoad (name : Text) : Bool :=
  Text.lower name == "load".toList

def isUnload (name : Text) : Bool :=
  Text.lower name == "unload".toList

/-- Elements that never have children: the void elements and the asset declarations. -/
def isChildless (name : Text) : Bool :=
  isVoid name || isLoad name || isUnload name

end MarkupTemplate
