import MarkupTemplate.Attribute
import MarkupTemplate.Text.Integer

/-!
# Assets

Style sheets and scripts that a page declares. A declaration says where the file is, in which order it
comes, for which media it is meant, and in which slot of the page a script is loaded; media and slot
may be left open. Collected declarations are numbered in the order of their arrival; they are listed by
their index, and by that number where the index is the same.
-/

namespace MarkupTemplate

inductive AssetKind
  | css
  | js
deriving DecidableEq

namespace AssetKind

def label : AssetKind → Text
  | css => "css".toList
  | js => "js".toList

def ofLabel? (s : Text) : Option AssetKind :=
  [css, js].find? fun kind => kind.label = s

end AssetKind

structure Declaration where
  kind : AssetKind
  target : Text
  order : Int
  media : Option Text
  slot : Option Text
deriving DecidableEq

namespace Declaration

def lastIndex : Int := 999999

def defaultMedia : Text :=
  "all".toList

def headSlot : Text :=
  "head".toList

def bodySlot : Text :=
  "body".toList

def html (d : Declaration) : Text :=
  match d.kind with
  | .css =>
    "<link rel=\"stylesheet\" href=\"".toList ++ Text.escape d.target ++ "\" media=\"".toList ++
      Text.escape (d.media.getD []) ++ "\">".toList
  | .js => "<script src=\"".toList ++ Text.escape d.target ++ "\"></script>".toList

end Declaration

structure Asset where
  declaration : Declaration
  sequence : Nat
deriving DecidableEq

abbrev Assets := List Asset

structure UnknownAssetKind where
  kind : Text

def UnknownAssetKind.message (e : UnknownAssetKind) : Text :=
  "Unknown asset kind: ".toList ++ Text.quoted e.kind

namespace Assets

def add (assets : Assets) (d : Declaration) : Assets :=
  assets ++ [⟨d, assets.length⟩]

def addAll (assets : Assets) (ds : List Declaration) : Assets :=
  ds.foldl add assets

def addNamed (assets : Assets) (kind target : Text) (order : Int) (media slot : Option Text) :
    Except UnknownAssetKind Assets :=
  match AssetKind.ofLabel? kind with
  | some kind => .ok (assets.add ⟨kind, target, order, media, slot⟩)
  | none => .error ⟨kind⟩

def precedes (a b : Asset) : Bool :=
  decide (a.declaration.order < b.declaration.order) ||
    (a.declaration.order == b.declaration.order && decide (a.sequence ≤ b.sequence))

def sorted (assets : Assets) : Assets :=
  assets.mergeSort precedes

def stylesheets (assets : Assets) : Assets :=
  sorted (assets.filter fun a => a.declaration.kind = .css)

def scripts (slot : Option Text) (assets : Assets) : Assets :=
  sorted (assets.filter fun a => a.declaration.kind = .js ∧ a.declaration.slot = slot)

end Assets

def Text.afterLast (c : Char) (s : Text) : Text :=
  (s.reverse.takeWhile (· != c)).reverse

def targetExtension (target : Text) : Text :=
  let base := Text.afterLast '/' (target.takeWhile fun c => c != '?' && c != '#')
  if base.contains '.' then Text.lower (Text.afterLast '.' base) else []

/-- The index that an attribute gives: the integer at its head, one where it has no value, and the
last place where there is no such attribute. -/
def readIndex : Option AttributeValue → Except Text.TooManyDigits Int
  | none | some .missing => .ok Declaration.lastIndex
  | some .flag => .ok 1
  | some (.text value) => Text.leadingInteger value

end MarkupTemplate
