import MarkupTemplate.Text.Basic

/-!
# Quoted literals

The content of a literal runs to the next closing quote, and a backslash takes the character after it
into the content. A literal that is never closed is none.
-/

namespace MarkupTemplate.Text

def literal? (quote : Char) : Text → Option (Text × Text)
  | [] => none
  | '\\' :: c :: s => (literal? quote s).map fun (content, rest) => ('\\' :: c :: content, rest)
  | c :: s =>
    if c = quote then some ([], s)
    else if c = '\\' then none
    else (literal? quote s).map fun (content, rest) => (c :: content, rest)

theorem append_of_literal? {quote : Char} {s content rest : Text}
    (h : literal? quote s = some (content, rest)) : s = content ++ quote :: rest := by
  fun_induction literal? quote s generalizing content with
  | case1 => simp at h
  | case2 c s ih =>
    obtain ⟨⟨v, r⟩, hv, he⟩ := Option.map_eq_some_iff.1 h
    cases he
    simp [ih hv]
  | case3 c s => simp_all
  | case4 => simp at h
  | case5 c s _ _ _ ih =>
    obtain ⟨⟨v, r⟩, hv, he⟩ := Option.map_eq_some_iff.1 h
    cases he
    simp [ih hv]

theorem length_literal? {quote : Char} {s content rest : Text}
    (h : literal? quote s = some (content, rest)) : rest.length ≤ s.length := by
  have := congrArg List.length (append_of_literal? h)
  simp only [List.length_append, List.length_cons] at this
  omega

theorem length_dropWhile_le (p : Char → Bool) (s : Text) : (s.dropWhile p).length ≤ s.length :=
  (List.dropWhile_sublist p).length_le

end MarkupTemplate.Text
