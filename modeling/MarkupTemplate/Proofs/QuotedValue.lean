import MarkupTemplate.Proofs.ScanContext
import MarkupTemplate.Proofs.TagMarkup

/-!
# Where a quoted value ends

Scanning a tag and reading its attributes have a rule for quotes each. The reader takes a backslash
together with the character after it. The scanner looks at the one character before a quote. Within a
value both pass over the same quotes, and they part at its end: behind a value that ends in a backslash,
which is an escaped one, the reader sees the closing quote and the scanner does not. The tag then goes on
into what follows it.
-/

namespace MarkupTemplate

/-- An opening tag with one attribute, whose value stands between double quotes as it is. -/
def quotedTag (name key value : Text) : Text :=
  '<' :: name ++ ' ' :: key ++ '=' :: '"' :: value ++ ['"', '>']

namespace Scan

theorem tagSpan_of_quotable {quote : Char} (hquote : quote ≠ '\\') {value : Text}
    (h : Code.Quotable quote value) (previous : Char) (s : Text) :
    tagSpan previous (some quote) (value ++ s) =
      (tagSpan (value.getLast?.getD previous) (some quote) s).prepend value := by
  induction h generalizing previous with
  | nil => rfl
  | @plain c value hc _ _ ih =>
    have hopen : ¬ (c = quote ∧ previous ≠ '\\') := fun h => hc h.1
    rw [List.cons_append, tagSpan, if_neg hopen, ih, Span.push_eq_prepend, Span.prepend_prepend,
      List.getLast?_cons]
    rfl
  | @escaped c value _ ih =>
    have hbackslash : ¬ ('\\' = quote ∧ previous ≠ '\\') := fun h => hquote h.1.symm
    have hescaped : ¬ (c = quote ∧ '\\' ≠ '\\') := fun h => h.2 rfl
    rw [List.cons_append, List.cons_append, tagSpan, if_neg hbackslash, tagSpan, if_neg hescaped, ih]
    simp only [Span.push_eq_prepend, Span.prepend_prepend, List.getLast?_cons]
    rfl

/-- What the scanner takes behind the closing quote and the bracket of a tag that it does not see. -/
def swallowed (value rest : Text) : Text :=
  if value.getLast? = some '\\' then (tagSpan '>' (some '"') rest).taken else []

theorem swallowed_eq_nil_iff {value rest : Text} :
    swallowed value rest = [] ↔ value.getLast? ≠ some '\\' ∨ rest = [] := by
  by_cases hlast : value.getLast? = some '\\'
  · simp only [swallowed, hlast, ne_eq, not_true_eq_false, false_or]
    cases rest with
    | nil => simp [tagSpan]
    | cons c rest => simp [tagSpan, Span.push]
  · simp [swallowed, hlast]

theorem taken_tagSpan_quotedTag {name key value : Text} (hname : Tag.IsName name)
    (hkey : Tag.IsName key) (hvalue : Code.Quotable '"' value) (rest : Text) :
    (tagSpan '<' none ((quotedTag name key value ++ rest).tail)).taken =
      (quotedTag name key value).tail ++ swallowed value rest := by
  have hplain : ∀ c ∈ name ++ ' ' :: key ++ ['='], c ≠ '"' ∧ c ≠ '\'' ∧ c ≠ '>' := by
    intro c hc
    simp only [List.mem_append, List.mem_cons, List.not_mem_nil, or_false] at hc
    rcases hc with (hc | rfl | hc) | rfl
    · exact plain_of_isName hname c hc
    · decide
    · exact plain_of_isName hkey c hc
    · decide
  have hopen : ∀ s, tagSpan '=' none ('"' :: s) = (tagSpan '"' (some '"') s).prepend ['"'] := by
    intro s
    rw [tagSpan, if_pos (by decide), Span.push_eq_prepend]
  have hsplit : (quotedTag name key value ++ rest).tail =
      name ++ ' ' :: key ++ ['='] ++ '"' :: (value ++ '"' :: '>' :: rest) := by
    simp [quotedTag]
  rw [hsplit, tagSpan_plain hplain, List.getLast?_concat, Option.getD_some, hopen,
    tagSpan_of_quotable (by decide) hvalue]
  by_cases hlast : value.getLast? = some '\\'
  · -- the closing quote stands behind a backslash, so the bracket stands between quotes
    have hquote : ¬ ('"' = '"' ∧ value.getLast?.getD '"' ≠ '\\') := by simp [hlast]
    have hbracket : ¬ ('>' = '"' ∧ '"' ≠ '\\') := by decide
    rw [tagSpan, if_neg hquote, tagSpan, if_neg hbracket]
    simp [Span.push, Span.prepend, swallowed, hlast, quotedTag]
  · have hquote : '"' = '"' ∧ value.getLast?.getD '"' ≠ '\\' := by
      refine ⟨rfl, ?_⟩
      cases hv : value.getLast? with
      | none => decide
      | some c =>
        intro hc
        exact hlast (hv.trans (congrArg some hc))
    rw [tagSpan, if_pos hquote, tagSpan_bracket]
    simp [Span.push, Span.prepend, swallowed, hlast, quotedTag]

end Scan

theorem Tag.read_quotedTag {name key value : Text} (hname : IsName name)
    (hkey : IsName key) (hvalue : Code.Quotable '"' value) :
    read (quotedTag name key value) = ⟨name, [(key, .text value)], false, false⟩ := by
  have hraw : quotedTag name key value =
      '<' :: (name ++ (' ' :: key ++ '=' :: '"' :: value ++ ['"'] ++ ['>'])) := by
    simp [quotedTag]
  have hend : ∀ u : Text, dropTail (u ++ ['"'] ++ ['>']) = (false, u ++ ['"']) := by
    intro u
    apply dropTail_of_last
    intro c hc
    rw [List.getLast?_concat] at hc
    cases hc
    exact ⟨by decide, by decide⟩
  have hself : (dropTail (quotedTag name key value)).1 = false := by
    have hconcat : quotedTag name key value =
        '<' :: name ++ ' ' :: key ++ '=' :: '"' :: value ++ ['"'] ++ ['>'] := by
      simp [quotedTag]
    rw [hconcat, hend]
  have hvalue' : attributeRest ('=' :: '"' :: (value ++ ['"'])) = (.text value, []) := by
    have hliteral := Code.literal?_append (by decide) hvalue []
    have hassigned : assigned? ('=' :: '"' :: (value ++ ['"'])) = some (value, []) := hliteral
    rw [attributeRest, hassigned]
  have hitems : attributeItems (' ' :: key ++ '=' :: '"' :: value ++ ['"']) =
      [(key, .text value)] := by
    have hblank : ∀ c ∈ [' '], isNameChar c = false := Text.forall_of_all (by decide)
    have hequals : ∀ c ∈ ('=' :: '"' :: (value ++ ['"'])).head?, isNameChar c = false := by
      intro c hc
      cases hc
      decide
    have hnone : attributeItems [] = [] := attributeItems_eq_nil fun c hc => absurd hc List.not_mem_nil
    have hread := attributeItems_append hblank hkey hequals
    rw [hvalue', hnone] at hread
    simpa using hread
  rw [hraw, read_of_opening? (hname.opening? _) hname (by intro c hc; cases hc; decide), ← hraw, hself,
    hend, hitems]
  rfl

theorem head?_tokenize_quotedTag {name key value : Text} (hname : Tag.IsName name)
    (hkey : Tag.IsName key) (hvalue : Code.Quotable '"' value) (rest : Text) :
    (tokenize (quotedTag name key value ++ rest)).head? =
      some ⟨.tag (quotedTag name key value ++ Scan.swallowed value rest)
        (.read (quotedTag name key value ++ Scan.swallowed value rest)), 0⟩ := by
  have hsource : quotedTag name key value ++ rest =
      '<' :: (quotedTag name key value ++ rest).tail := rfl
  have hcomment : ∀ t, (quotedTag name key value ++ rest).tail ≠ '!' :: '-' :: '-' :: t := by
    obtain ⟨c, name, rfl⟩ := List.exists_cons_of_ne_nil hname.ne_nil
    intro t ht
    have hc : c = '!' := (List.cons.inj ht).1
    exact absurd (hname.all c List.mem_cons_self) (by rw [hc]; decide)
  rw [tokenize, Scan.pieces, hsource, Scan.piecesFrom_cons, Scan.step_eq_tagStep rfl hcomment]
  simp only [Scan.tokensFrom, List.head?_cons, Scan.tagStep,
    Scan.taken_tagSpan_quotedTag hname hkey hvalue]
  rfl

/-- The scanner and the reader agree on where the value of a tag ends, exactly if the value does not end
in a backslash or nothing follows the tag. -/
theorem tokenize_quotedTag_iff {name key value : Text} (hname : Tag.IsName name)
    (hkey : Tag.IsName key) (hvalue : Code.Quotable '"' value) (rest : Text) :
    (∃ token, (tokenize (quotedTag name key value ++ rest)).head? = some token ∧
      token.kind = .openTag ∧ token.raw = quotedTag name key value ∧
      token.tag?.map Tag.attributes = some [(key, .text value)]) ↔
    value.getLast? ≠ some '\\' ∨ rest = [] := by
  have hhead := head?_tokenize_quotedTag hname hkey hvalue rest
  rw [← Scan.swallowed_eq_nil_iff]
  constructor
  · intro ⟨token, htoken, _, hraw, _⟩
    rw [hhead] at htoken
    cases htoken
    exact List.append_right_eq_self.1 hraw
  · intro hnone
    rw [hnone, List.append_nil, Tag.read_quotedTag hname hkey hvalue] at hhead
    exact ⟨_, hhead, rfl, rfl, rfl⟩

def folder : Text :=
  ['c', ':', '\\', '\\']

theorem quotable_folder : Code.Quotable '"' folder :=
  .plain (by decide) (by decide) (.plain (by decide) (by decide) (.escaped .nil))

theorem isName_a : Tag.IsName ['a'] :=
  ⟨by decide, Text.forall_of_all (by decide)⟩

theorem tokenize_quotedTag_iff_folder :
    Tag.IsName ['a'] ∧ Code.Quotable '"' folder ∧
      ((∃ token, (tokenize (quotedTag ['a'] ['a'] folder ++ ['x'])).head? = some token ∧
        token.kind = .openTag ∧ token.raw = quotedTag ['a'] ['a'] folder ∧
        token.tag?.map Tag.attributes = some [(['a'], .text folder)]) ↔
      folder.getLast? ≠ some '\\' ∨ ['x'] = []) :=
  ⟨isName_a, quotable_folder, tokenize_quotedTag_iff isName_a isName_a quotable_folder ['x']⟩

theorem not_forall_quotedTag_agrees :
    ¬ ∀ name key value rest : Text, Tag.IsName name → Tag.IsName key → Code.Quotable '"' value →
      ∃ token, (tokenize (quotedTag name key value ++ rest)).head? = some token ∧
        token.kind = .openTag ∧ token.raw = quotedTag name key value ∧
        token.tag?.map Tag.attributes = some [(key, .text value)] := by
  intro h
  obtain ⟨token, htoken, -, hraw, -⟩ := h ['a'] ['a'] folder ['x'] isName_a isName_a quotable_folder
  have hlonger : (tokenize (quotedTag ['a'] ['a'] folder ++ ['x'])).head?.map Token.raw =
      some (quotedTag ['a'] ['a'] folder ++ ['x']) := by
    decide +kernel
  rw [htoken, Option.map_some, hraw] at hlonger
  exact absurd hlonger (by decide)

end MarkupTemplate
