import MarkupTemplate.Tag

/-!
# Tokens

A template source falls into text, tags, comments and raw-code blocks. A lexeme says what was read: a
comment without its delimiters, a raw-code block and a tag with theirs, and of a tag also what it
says. A token is a lexeme with its position in the source.

Reports compare tokens by kind and text alone; that part of a token is its signature.
-/

namespace MarkupTemplate

inductive Lexeme
  | text (data : Text)
  | tag (raw : Text) (tag : Tag)
  | comment (data : Text)
  | code (raw : Text)
deriving DecidableEq

structure Token where
  lexeme : Lexeme
  position : Nat
deriving DecidableEq

namespace Token

inductive Kind
  | text
  | openTag
  | closeTag
  | comment
  | code
deriving DecidableEq

namespace Kind

def all : List Kind :=
  [text, openTag, closeTag, comment, code]

def label : Kind → Text
  | text => "TEXT".toList
  | openTag => "TAG_OPEN".toList
  | closeTag => "TAG_CLOSE".toList
  | comment => "COMMENT".toList
  | code => "RAW_CODE".toList

def ofLabel? (s : Text) : Option Kind :=
  all.find? fun kind => kind.label = s

def isTag : Kind → Bool
  | openTag | closeTag => true
  | _ => false

end Kind

structure Signature where
  kind : Kind
  raw : Text
deriving DecidableEq

def Signature.describe (s : Signature) : Text :=
  "Token(".toList ++ s.kind.label ++ ", ".toList ++ Text.quoted s.raw ++ [')']

def kind (token : Token) : Kind :=
  match token.lexeme with
  | .text _ => .text
  | .tag _ tag => if tag.closing then .closeTag else .openTag
  | .comment _ => .comment
  | .code _ => .code

def raw (token : Token) : Text :=
  match token.lexeme with
  | .text data => data
  | .tag raw _ => raw
  | .comment data => data
  | .code raw => raw

def tag? (token : Token) : Option Tag :=
  match token.lexeme with
  | .tag _ tag => some tag
  | _ => none

def signature (token : Token) : Signature :=
  ⟨token.kind, token.raw⟩

def describe (token : Token) : Text :=
  match token.tag? with
  | some tag => "Token(".toList ++ token.kind.label ++ ", ".toList ++ tag.describe ++ [')']
  | none => token.signature.describe

end Token

end MarkupTemplate
