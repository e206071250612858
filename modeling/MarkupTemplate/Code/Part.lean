import MarkupTemplate.Text.Literal

/-!
# The lexical parts of host code

Host code falls into string literals, comments and single characters. Only complete literals and
complete block comments count as such; a quote or comment opener without its end is a character like
any other. A line comment ends before the line feed.

Stripping empties every literal and drops every comment. Double-quoted literals can be kept as they
are, since the host language reads variables inside them.
-/

namespace MarkupTemplate.Code

inductive Part
  | double (content : Text)
  | single (content : Text)
  | block (content : Text)
  | line (content : Text)
  | other (c : Char)
deriving DecidableEq

namespace Part

def source : Part → Text
  | double content => '"' :: content ++ ['"']
  | single content => '\'' :: content ++ ['\'']
  | block content => '/' :: '*' :: content ++ ['*', '/']
  | line content => '/' :: '/' :: content
  | other c => [c]

def stripped (keepDouble : Bool) : Part → Text
  | double content => if keepDouble then '"' :: content ++ ['"'] else ['"', '"']
  | single _ => ['\'', '\'']
  | block _ | line _ => []
  | other c => [c]

end Part

def part (c : Char) (s : Text) : Part × Text :=
  match c, s with
  | '"', s =>
    match Text.literal? '"' s with
    | some (content, rest) => (.double content, rest)
    | none => (.other '"', s)
  | '\'', s =>
    match Text.literal? '\'' s with
    | some (content, rest) => (.single content, rest)
    | none => (.other '\'', s)
  | '/', '*' :: s =>
    match Text.cut? ['*', '/'] s with
    | some (content, rest) => (.block content, rest)
    | none => (.other '/', '*' :: s)
  | '/', '/' :: s => (.line (s.takeWhile (· != '\n')), s.dropWhile (· != '\n'))
  | c, s => (.other c, s)

theorem source_part_append (c : Char) (s : Text) : (part c s).1.source ++ (part c s).2 = c :: s := by
  unfold part
  split
  · split
    · next h => simp [Part.source, Text.append_of_literal? h]
    · simp [Part.source]
  · split
    · next h => simp [Part.source, Text.append_of_literal? h]
    · simp [Part.source]
  · split
    · next h => simp [Part.source, Text.append_of_cut? h]
    · simp [Part.source]
  · simp [Part.source]
  · simp [Part.source]

theorem length_source_pos (p : Part) : 0 < p.source.length := by
  cases p <;> simp [Part.source]

theorem length_part (c : Char) (s : Text) : (part c s).2.length < (c :: s).length := by
  have h := congrArg List.length (source_part_append c s)
  have := length_source_pos (part c s).1
  simp only [List.length_append] at h
  omega

def parts (s : Text) : List Part :=
  match s with
  | [] => []
  | c :: s =>
    let next := part c s
    next.1 :: parts next.2
termination_by s.length
decreasing_by exact length_part c s

theorem flatMap_source_parts (s : Text) : (parts s).flatMap Part.source = s := by
  fun_induction parts s with
  | case1 => rfl
  | case2 c s next ih =>
    rw [List.flatMap_cons, ih]
    exact source_part_append c s

def strip (keepDouble : Bool) (s : Text) : Text :=
  (parts s).flatMap (Part.stripped keepDouble)

end MarkupTemplate.Code
