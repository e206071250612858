import MarkupTemplate.Text.Basic

/-!
# Entities

Text between the quotes of an attribute is written with entities for the five characters that mean
something in markup. The ampersand is replaced first, so that the ampersands of the other entities
stay. `escape` does the five replacements one after another; `encode` replaces each character by its
entity in one pass.
-/

namespace MarkupTemplate.Text

def replaceChar (c : Char) (entity s : Text) : Text :=
  s.flatMap fun x => if x = c then entity else [x]

def escape (s : Text) : Text :=
  replaceChar '\'' ['&', '#', '0', '3', '9', ';'] <|
  replaceChar '"' ['&', 'q', 'u', 'o', 't', ';'] <|
  replaceChar '>' ['&', 'g', 't', ';'] <|
  replaceChar '<' ['&', 'l', 't', ';'] <|
  replaceChar '&' ['&', 'a', 'm', 'p', ';'] s

def entity (c : Char) : Text :=
  if c = '&' then ['&', 'a', 'm', 'p', ';']
  else if c = '<' then ['&', 'l', 't', ';']
  else if c = '>' then ['&', 'g', 't', ';']
  else if c = '"' then ['&', 'q', 'u', 'o', 't', ';']
  else if c = '\'' then ['&', '#', '0', '3', '9', ';']
  else [c]

def encode (s : Text) : Text :=
  s.flatMap entity

theorem replaceChar_append (c : Char) (e s t : Text) :
    replaceChar c e (s ++ t) = replaceChar c e s ++ replaceChar c e t := by
  simp [replaceChar]

theorem escape_append (s t : Text) : escape (s ++ t) = escape s ++ escape t := by
  simp [escape, replaceChar_append]

theorem escape_singleton (c : Char) : escape [c] = entity c := by
  by_cases h₁ : c = '&'
  · subst h₁; rfl
  by_cases h₂ : c = '<'
  · subst h₂; rfl
  by_cases h₃ : c = '>'
  · subst h₃; rfl
  by_cases h₄ : c = '"'
  · subst h₄; rfl
  by_cases h₅ : c = '\''
  · subst h₅; rfl
  simp [escape, entity, replaceChar, h₁, h₂, h₃, h₄, h₅]

end MarkupTemplate.Text
