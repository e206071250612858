import MarkupTemplate.Text.Entity
import MarkupTemplate.Text.LetterCase
import MarkupTemplate.Text.Quoted

/-!
# Attributes

The attributes of an element in the order of their first appearance, one entry a name. An attribute
may stand without a value; nodes made by hand may also hold a name to which no value was ever given.
Setting a name again replaces its value and keeps its place.

In markup, an attribute named like its own element is left out, in whatever letter case, and so are
the directives that the caller names.
-/

namespace MarkupTemplate

inductive AttributeValue
  | flag
  | text (value : Text)
  | missing
deriving DecidableEq

abbrev Attributes := List (Text × AttributeValue)

namespace AttributeValue

def describe : AttributeValue → Text
  | flag => "True".toList
  | text value => Text.quoted value
  | missing => "None".toList

def outline : AttributeValue → Text
  | flag => []
  | text value => value
  | missing => "None".toList

end AttributeValue

namespace Attributes

def set (name : Text) (value : AttributeValue) : Attributes → Attributes
  | [] => [(name, value)]
  | (n, v) :: rest => if n = name then (n, value) :: rest else (n, v) :: set name value rest

def ofList (items : List (Text × AttributeValue)) : Attributes :=
  items.foldl (fun attributes (name, value) => set name value attributes) []

def has (name : Text) (attributes : Attributes) : Bool :=
  attributes.any fun (n, _) => n == name

theorem names_set (name : Text) (value : AttributeValue) (attributes : Attributes) :
    (set name value attributes).map Prod.fst =
      if name ∈ attributes.map Prod.fst then attributes.map Prod.fst
      else attributes.map Prod.fst ++ [name] := by
  induction attributes with
  | nil => simp [set]
  | cons item rest ih =>
    obtain ⟨n, v⟩ := item
    by_cases h : n = name
    · simp [set, h]
    · by_cases hr : name ∈ rest.map Prod.fst
      · simp_all [set]
      · simp_all [set, Ne.symm h]

def itemMarkup : Text × AttributeValue → Text
  | (name, .flag) => ' ' :: name
  | (name, .text value) => ' ' :: name ++ ['=', '"'] ++ Text.escape value ++ ['"']
  | (name, .missing) => ' ' :: name ++ ['=', '"', '"']

def kept (element : Text) (skip : List Text) (attributes : Attributes) : Attributes :=
  attributes.filter fun (name, _) => !(Text.lower name == Text.lower element || skip.contains name)

def markup (element : Text) (skip : List Text) (attributes : Attributes) : Text :=
  (kept element skip attributes).flatMap itemMarkup

end Attributes

def startTag (name : Text) (attributes : Attributes) (skip : List Text) : Text :=
  '<' :: name ++ attributes.markup name skip ++ ['>']

def endTag (name : Text) : Text :=
  '<' :: '/' :: name ++ ['>']

end MarkupTemplate
