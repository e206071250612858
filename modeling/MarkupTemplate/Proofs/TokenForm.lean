import MarkupTemplate.Proofs.BlockCapture
import MarkupTemplate.Proofs.RawTextElements
import MarkupTemplate.Proofs.ScanPrefix

/-!
# The normal form of tokens

The tokens of a source have a form that does not depend on how the scan came to them. A run of text goes on
until something else begins, so it is never empty, no two runs are neighbours, and no block opens in one. In
ordinary content a bracket ends it as well; a run with a bracket stands in the content of a script or style
element, behind its opening tag with only text and blocks between. A tag begins with a bracket that opens no
comment, and ends with one unless the source ends first. A comment ends at the first closing delimiter, so it
holds none.
-/

namespace MarkupTemplate

def Token.OpensRawText (token : Token) : Prop :=
  ∃ tag, token.tag? = some tag ∧ tag.closing = false ∧ tag.selfClosing = false ∧
    isRawText tag.name = true

/-- The tokens end in the raw text of an element: its opening tag, and then only text and blocks. -/
def Token.EndInRawText (tokens : List Token) : Prop :=
  ∃ front opening inside, tokens = front ++ opening :: inside ∧ opening.OpensRawText ∧
    ∀ token ∈ inside, token.kind = .text ∨ token.kind = .code

inductive Lexeme.FormIn (mode : Scan.Mode) (cut : Option Construct) : Lexeme → Prop
  | text {data : Text} (nonempty : data ≠ []) (noBlock : ¬ ['{', '@'] <:+: data)
      (bracket : '<' ∈ data → mode ≠ .content) : FormIn mode cut (.text data)
  | tag {s : Text} (tag : Tag) (noComment : ¬ ['!', '-', '-'] <+: s)
      (ending : ('<' :: s).getLast? = some '>' ∨ cut = some .tag) :
      FormIn mode cut (.tag ('<' :: s) tag)
  | comment {data : Text} (noEnd : ¬ ['-', '-', '>'] <:+: data) : FormIn mode cut (.comment data)
  | code (raw : Text) : FormIn mode cut (.code raw)

namespace Scan

theorem formIn_commentStep (mode : Mode) (s : Text) :
    (commentStep s).piece.lexeme.FormIn mode (commentStep s).piece.cut := by
  unfold commentStep
  cases hcut : Text.cut? ['-', '-', '>'] s with
  | none => exact .comment (Text.cut?_eq_none_iff.1 hcut)
  | some cut =>
    apply Lexeme.FormIn.comment
    intro h
    have hfirst := Text.not_infix_of_cut? (List.cons_ne_nil '-' ['-', '>']) hcut
    exact hfirst (h.trans (List.prefix_append cut.1 _).isInfix)

theorem formIn_tagStep (mode : Mode) {s : Text} (hs : ∀ t, s ≠ '!' :: '-' :: '-' :: t) :
    (tagStep s).piece.lexeme.FormIn mode (tagStep s).piece.cut := by
  apply Lexeme.FormIn.tag
  · rintro ⟨t, ht⟩
    have hsplit := taken_append_rest_tagSpan '<' none s
    rw [← ht] at hsplit
    exact hs _ hsplit.symm
  · cases hclosed : (tagSpan '<' none s).closed with
    | true =>
      left
      rw [List.getLast?_cons, getLast?_taken_tagSpan hclosed]
      rfl
    | false =>
      right
      simp [tagStep, Span.cut, hclosed]

theorem formIn_step (mode : Mode) (c : Char) (s : Text) :
    (step mode c s).piece.lexeme.FormIn mode (step mode c s).piece.cut := by
  rcases step_cases mode c s with ⟨t, -, -, he⟩ | ⟨t, -, -, -, he⟩ | ⟨-, hs, -, he⟩ | ⟨hi, he⟩
  · rw [he]
    exact .code _
  · rw [he]
    exact formIn_commentStep mode t
  · rw [he]
    exact formIn_tagStep mode hs
  · have hnone := noBlock_textRun mode (c :: s)
    rw [textRun_of_not_interrupts hi] at hnone
    rw [he]
    refine .text (List.cons_ne_nil c _) hnone ?_
    rintro hmem rfl
    have hlt := lt_not_mem_textRun (c :: s)
    rw [textRun_of_not_interrupts hi] at hlt
    exact hlt hmem

theorem modeAfterAll_concat (mode : Mode) (tokens : List Token) (token : Token) :
    modeAfterAll mode (tokens ++ [token]) = modeBehind (modeAfterAll mode tokens) token.lexeme := by
  simp [modeAfterAll]

theorem opensRawText_of_modeAfter {raw : Text} {tag : Tag} (position : Nat)
    (h : modeAfter tag ≠ .content) : Token.OpensRawText ⟨.tag raw tag, position⟩ := by
  unfold modeAfter at h
  split_ifs at h with hopens
  · simp only [Bool.and_eq_true, Bool.not_eq_true'] at hopens
    exact ⟨tag, rfl, hopens.1.1, hopens.1.2, hopens.2⟩
  · exact absurd rfl h

theorem endInRawText_concat {before : List Token} {token : Token} (h : Token.EndInRawText before)
    (hkind : token.kind = .text ∨ token.kind = .code) : Token.EndInRawText (before ++ [token]) := by
  obtain ⟨front, opening, inside, rfl, hopens, hinside⟩ := h
  refine ⟨front, opening, inside ++ [token], by simp, hopens, ?_⟩
  intro other hother
  rcases List.mem_append.1 hother with hother | hother
  · exact hinside other hother
  · rw [List.mem_singleton.1 hother]
    exact hkind

theorem endInRawText_of_mode {before : List Token} (h : modeAfterAll .content before ≠ .content) :
    Token.EndInRawText before := by
  -- the last token decides: text and blocks keep the mode, a tag sets it anew, a comment ends raw text
  induction before using List.reverseRecOn with
  | nil => exact absurd rfl h
  | append_singleton before token ih =>
    rw [modeAfterAll_concat] at h
    obtain ⟨lexeme, position⟩ := token
    cases lexeme with
    | text data => exact endInRawText_concat (ih h) (.inl rfl)
    | code raw => exact endInRawText_concat (ih h) (.inr rfl)
    | comment data => exact absurd rfl h
    | tag raw tag =>
      refine ⟨before, ⟨.tag raw tag, position⟩, [], rfl, opensRawText_of_modeAfter position h, ?_⟩
      intro other hother
      exact absurd hother List.not_mem_nil

theorem not_text_of_text {source : Text} {before after : List Token} {first second : Token}
    (h : tokenize source = before ++ first :: second :: after) {data : Text}
    (hfirst : first.lexeme = .text data) (other : Text) : second.lexeme ≠ .text other := by
  intro hsecond
  obtain ⟨c, s, -, htoken, hrest⟩ := exists_step_of_tokenize h
  have hlexeme : (step (modeAfterAll .content before) c s).piece.lexeme = .text data := by
    rw [← hfirst, htoken]
  -- a run ends at the end of the source or where something else begins in the same mode
  obtain ⟨hmode, hnext⟩ := rest_step_of_text hlexeme
  rw [hmode] at hrest
  cases hr : (step (modeAfterAll .content before) c s).rest with
  | nil =>
    rw [hr, piecesFrom_nil] at hrest
    cases hrest
  | cons d t =>
    rw [hr] at hnext
    rw [hr, piecesFrom_cons, tokensFrom, List.cons.injEq] at hrest
    rw [hrest.1] at hsecond
    have hstop := (step_of_text hsecond).1
    rw [hnext (List.cons_ne_nil d t)] at hstop
    cases hstop

theorem formIn_of_tokenize {source : Text} {before after : List Token} {lexeme : Lexeme}
    {position : Nat} (h : tokenize source = before ++ ⟨lexeme, position⟩ :: after) :
    ∃ cut, lexeme.FormIn (modeAfterAll .content before) cut ∧
      ∀ construct, cut = some construct →
        (tokenize source).getLast? = some ⟨lexeme, position⟩ ∧ ReportedAt construct position source := by
  obtain ⟨c, s, hahead, htoken, -⟩ := exists_step_of_tokenize h
  have hlexeme : lexeme = (step (modeAfterAll .content before) c s).piece.lexeme :=
    congrArg Token.lexeme htoken
  refine ⟨(step (modeAfterAll .content before) c s).piece.cut, ?_, ?_⟩
  · rw [hlexeme]
    exact formIn_step _ c s
  · intro construct hcut
    exact reportedAt_of_cut h hahead hcut

end Scan

structure Token.NormalForm (source : Text) (tokens : List Token) : Prop where
  text : ∀ before data position after, tokens = before ++ ⟨.text data, position⟩ :: after →
    data ≠ [] ∧ ¬ ['{', '@'] <:+: data ∧ ('<' ∈ data → EndInRawText before)
  apart : ∀ before first second after, tokens = before ++ first :: second :: after →
    ¬ (first.kind = .text ∧ second.kind = .text)
  tag : ∀ raw tag position, ⟨.tag raw tag, position⟩ ∈ tokens →
    ['<'] <+: raw ∧ ¬ "<!--".toList <+: raw ∧
      (raw.getLast? = some '>' ∨
        tokens.getLast? = some ⟨.tag raw tag, position⟩ ∧ Scan.ReportedAt .tag position source)
  comment : ∀ data position, ⟨.comment data, position⟩ ∈ tokens → ¬ "-->".toList <:+: data

theorem Token.exists_data_of_text {token : Token} (h : token.kind = .text) :
    ∃ data, token.lexeme = .text data := by
  obtain ⟨lexeme, position⟩ := token
  cases lexeme with
  | text data => exact ⟨data, rfl⟩
  | comment data => cases h
  | code raw => cases h
  | tag raw tag =>
    simp only [Token.kind] at h
    split at h <;> cases h

/-- The tokens of every source are in normal form. -/
theorem tokenize_normalForm (source : Text) : Token.NormalForm source (tokenize source) := by
  refine ⟨?_, ?_, ?_, ?_⟩
  · intro before data position after h
    obtain ⟨cut, hform, -⟩ := Scan.formIn_of_tokenize h
    cases hform with
    | text nonempty noBlock bracket =>
      exact ⟨nonempty, noBlock, fun hmem => Scan.endInRawText_of_mode (bracket hmem)⟩
  · rintro before first second after h ⟨hfirst, hsecond⟩
    obtain ⟨data, hdata⟩ := Token.exists_data_of_text hfirst
    obtain ⟨other, hother⟩ := Token.exists_data_of_text hsecond
    exact Scan.not_text_of_text h hdata other hother
  · intro raw tag position hmem
    obtain ⟨before, after, h⟩ := List.append_of_mem hmem
    obtain ⟨cut, hform, hcut⟩ := Scan.formIn_of_tokenize h
    cases hform with
    | @tag s _ noComment ending =>
      refine ⟨⟨s, rfl⟩, ?_, ending.imp_right (hcut .tag)⟩
      intro hopen
      exact noComment (List.cons_prefix_cons.1 hopen).2
  · intro data position hmem
    obtain ⟨before, after, h⟩ := List.append_of_mem hmem
    obtain ⟨cut, hform, -⟩ := Scan.formIn_of_tokenize h
    cases hform with
    | comment noEnd => exact noEnd

end MarkupTemplate
