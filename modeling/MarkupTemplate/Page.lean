import MarkupTemplate.Loop

/-!
# Compiled pages

A compiled page is a sequence of chunks: markup as it goes to the browser, and blocks of the host
language, namely code, a printed expression, and the opening and closing of conditions and loops. The
text of the page is the text of its chunks one after another.
-/

namespace MarkupTemplate

inductive Chunk
  | markup (text : Text)
  | code (body : Text)
  | print (expr : Text)
  | openIf (condition : Text)
  | closeIf
  | openLoop (loop : Loop)
  | closeLoop (loop : Loop)
deriving DecidableEq

def Chunk.text : Chunk → Text
  | .markup text => text
  | .code body => "<?php\n".toList ++ body ++ "\n?>".toList
  | .print expr => "<?= ".toList ++ expr ++ " ?>".toList
  | .openIf condition => "<?php if(".toList ++ condition ++ "): ?>".toList
  | .closeIf => "<?php endif; ?>".toList
  | .openLoop loop => loop.opening
  | .closeLoop loop => loop.closing

abbrev Page := List Chunk

namespace Page

def text (page : Page) : Text :=
  page.flatMap Chunk.text

@[simp] theorem text_nil : text [] = [] := rfl

@[simp] theorem text_append (a b : Page) : text (a ++ b) = text a ++ text b := by
  simp [text]

def lineBreak : Chunk :=
  .markup ['\n']

def conditional (condition : Text) (body : Page) : Page :=
  .openIf condition :: body ++ [.closeIf]

def looping (loop : Loop) (body : Page) : Page :=
  .openLoop loop :: lineBreak :: body ++ [lineBreak, .closeLoop loop]

end Page

end MarkupTemplate
