import MarkupTemplate.Proofs.Scan

/-!
# Tokens partition the source

A token stands for a span of the source: its own text, and of a comment the delimiters too. The spans
lie side by side from the first character to the last. The one span that a token does not determine
by itself is that of a comment which the end of the source cuts short; it has no closing delimiter,
and it is the last.
-/

namespace MarkupTemplate

namespace Token

/-- The characters a token stands for. `unclosed` says of a comment that its closing delimiter is
missing. -/
def span (unclosed : Bool) (token : Token) : Text :=
  match token.kind with
  | .comment => "<!--".toList ++ token.raw ++ (if unclosed then [] else "-->".toList)
  | _ => token.raw

def spans (unclosed : Bool) : List Token → List Text
  | [] => []
  | [last] => [last.span unclosed]
  | token :: next :: rest => token.span false :: spans unclosed (next :: rest)

/-- Tokens that lie side by side on their spans, from the start of `source` to its end. -/
structure Partition (source : Text) (tokens : List Token) (spans : List Text) : Prop where
  oneEach : spans.length = tokens.length
  starts : ∀ first, tokens.head? = some first → first.position = 0
  follows : ∀ i token next span, tokens[i]? = some token → tokens[i + 1]? = some next →
    spans[i]? = some span → next.position = token.position + span.length
  covers : spans.flatten = source

theorem span_tag (unclosed : Bool) (raw : Text) (tag : Tag) (position : Nat) :
    span unclosed ⟨.tag raw tag, position⟩ = raw := by
  cases hc : tag.closing <;> simp [span, kind, Token.raw, hc]

end Token

namespace Scan

def reports (construct : Construct) (source : Text) : Bool :=
  (diagnostics source).any fun d => d.code == construct.code

def cutIn (construct : Construct) (pieces : List Piece) : Bool :=
  pieces.any fun piece => piece.cut == some construct

theorem code_injective {a b : Construct} (h : a.code = b.code) : a = b := by
  revert h
  cases a <;> cases b <;> decide

theorem any_cutsFrom (construct : Construct) (position : Nat) (pieces : List Piece) :
    ((cutsFrom position pieces).any fun cut => cut.1.code == construct.code) =
      cutIn construct pieces := by
  induction pieces generalizing position with
  | nil => rfl
  | cons piece rest ih =>
    have hr := ih (position + piece.source.length)
    unfold cutIn at hr ⊢
    unfold cutsFrom
    split
    · next other hc =>
      have he : (other.code == construct.code) = (some other == some construct) := by
        rw [Bool.eq_iff_iff, beq_iff_eq, beq_iff_eq, Option.some_inj]
        exact ⟨code_injective, congrArg Construct.code⟩
      rw [List.any_cons, List.any_cons, hr, hc, he]
    · next hc =>
      rw [List.any_cons, hr, hc]
      rfl

theorem reports_eq_cutIn (construct : Construct) (source : Text) :
    reports construct source = cutIn construct (pieces source) := by
  rw [← any_cutsFrom construct 0]
  simp only [reports, diagnostics, cuts, List.any_map]
  rfl

theorem span_step (mode : Mode) (c : Char) (s : Text) (position : Nat) :
    Token.span ((step mode c s).piece.cut == some .comment)
      ⟨(step mode c s).piece.lexeme, position⟩ = (step mode c s).piece.source := by
  rcases step_cases mode c s with ⟨t, -, -, he⟩ | ⟨t, -, -, -, he⟩ | ⟨-, -, -, he⟩ | ⟨-, he⟩
  · rw [he]
    rfl
  · rw [he]
    unfold commentStep
    cases Text.cut? ['-', '-', '>'] t with
    | some cut => rfl
    | none => simp [Token.span, Token.kind, Token.raw]
  · rw [he]
    exact Token.span_tag _ _ _ _
  · rw [he]
    rfl

theorem spans_tokensFrom (mode : Mode) (s : Text) (position : Nat) :
    Token.spans (cutIn .comment (piecesFrom mode s)) (tokensFrom position (piecesFrom mode s)) =
      (piecesFrom mode s).map Piece.source := by
  fun_induction piecesFrom mode s generalizing position with
  | case1 => rfl
  | case2 mode c s next ih =>
    have hspan := span_step mode c s position
    cases hr : next.rest with
    | nil =>
      simp only [piecesFrom_nil, cutIn, List.any_cons, List.any_nil, Bool.or_false, tokensFrom,
        Token.spans, List.map_cons, List.map_nil]
      rw [hspan]
    | cons d t =>
      -- something follows, so this piece was not cut short and decides nothing about the last span
      have hcut : next.piece.cut = none := by
        by_contra hne
        have := rest_step_of_cut hne
        exact List.cons_ne_nil d t (hr.symm.trans this)
      have htail := ih (position + next.piece.source.length)
      rw [hr, piecesFrom_cons] at htail
      simp only [piecesFrom_cons, cutIn, List.any_cons, tokensFrom, List.map_cons] at htail ⊢
      rw [Token.spans, hcut]
      change Token.span false _ :: Token.spans (false || _) _ = _
      rw [Bool.false_or, htail]
      rw [hcut] at hspan
      exact congrArg (· :: _) hspan

theorem length_tokensFrom (position : Nat) (pieces : List Piece) :
    (tokensFrom position pieces).length = pieces.length := by
  induction pieces generalizing position with
  | nil => rfl
  | cons piece rest ih => simp [tokensFrom, ih]

theorem position_tokensFrom {position i : Nat} {pieces : List Piece} {token : Token}
    (h : (tokensFrom position pieces)[i]? = some token) :
    token.position = position + ((pieces.take i).map Piece.source).flatten.length := by
  induction pieces generalizing position i with
  | nil => simp [tokensFrom] at h
  | cons piece rest ih =>
    cases i with
    | zero =>
      simp only [tokensFrom, List.getElem?_cons_zero, Option.some_inj] at h
      simp [← h]
    | succ i =>
      simp only [tokensFrom, List.getElem?_cons_succ] at h
      have hp := ih h
      simp only [List.take_succ_cons, List.map_cons, List.flatten_cons, List.length_append]
      omega

theorem position_follows {position i : Nat} {pieces : List Piece} {token next : Token}
    {span : Text} (ht : (tokensFrom position pieces)[i]? = some token)
    (hn : (tokensFrom position pieces)[i + 1]? = some next)
    (hs : (pieces.map Piece.source)[i]? = some span) :
    next.position = token.position + span.length := by
  have h₁ := position_tokensFrom ht
  have h₂ := position_tokensFrom hn
  rw [List.map_take, List.take_add_one, hs, Option.toList_some, List.flatten_append,
    List.length_append, ← List.map_take] at h₂
  simp only [List.flatten_cons, List.flatten_nil, List.append_nil] at h₂
  omega

theorem lexeme_step_of_cut_comment {mode : Mode} {c : Char} {s : Text}
    (h : (step mode c s).piece.cut = some .comment) :
    ∃ data, (step mode c s).piece.lexeme = .comment data := by
  rcases step_cases mode c s with ⟨t, -, -, he⟩ | ⟨t, -, -, -, he⟩ | ⟨-, -, -, he⟩ | ⟨-, he⟩
  · rw [he] at h
    simp [blockStep, Span.cut] at h
  · rw [he]
    unfold commentStep
    cases Text.cut? ['-', '-', '>'] t with
    | some cut => exact ⟨_, rfl⟩
    | none => exact ⟨_, rfl⟩
  · rw [he] at h
    simp [tagStep, Span.cut] at h
  · rw [he] at h
    simp [textStep] at h

theorem getLast?_of_cutIn_comment {mode : Mode} {s : Text} (position : Nat)
    (h : cutIn .comment (piecesFrom mode s) = true) :
    ∃ last, (tokensFrom position (piecesFrom mode s)).getLast? = some last ∧
      last.kind = .comment := by
  fun_induction piecesFrom mode s generalizing position with
  | case1 => simp [cutIn] at h
  | case2 mode c s next ih =>
    simp only [cutIn, List.any_cons, Bool.or_eq_true, beq_iff_eq] at h
    rcases h with hc | hrest
    · obtain ⟨data, hd⟩ := lexeme_step_of_cut_comment hc
      have hr : next.rest = [] := rest_step_of_cut (by rw [hc]; exact Option.some_ne_none _)
      refine ⟨⟨next.piece.lexeme, position⟩, ?_, ?_⟩
      · simp [tokensFrom, hr, piecesFrom_nil]
      · simp [Token.kind, next, hd]
    · obtain ⟨last, hl, hk⟩ := ih (position + next.piece.source.length) hrest
      refine ⟨last, ?_, hk⟩
      rw [tokensFrom, List.getLast?_cons, hl]
      rfl

end Scan

/-- The tokens of every source partition it. Each stands on its own text, a comment with its
delimiters; the closing delimiter is missing exactly where scanning reports an open comment, and then
the last token is that comment. -/
theorem tokenize_partition (source : Text) :
    Token.Partition source (tokenize source)
        (Token.spans (Scan.reports .comment source) (tokenize source)) ∧
      (Scan.reports .comment source = true →
        ∃ last, (tokenize source).getLast? = some last ∧ last.kind = .comment) := by
  have hspans := Scan.spans_tokensFrom .content source 0
  have hreports := Scan.reports_eq_cutIn .comment source
  unfold Scan.pieces at hreports
  constructor
  · unfold tokenize Scan.pieces
    rw [hreports, hspans]
    refine ⟨?_, ?_, ?_, ?_⟩
    · rw [List.length_map, Scan.length_tokensFrom]
    · intro first hf
      rw [List.head?_eq_getElem?] at hf
      simpa using Scan.position_tokensFrom hf
    · intro i token next span ht hn hs
      exact Scan.position_follows ht hn hs
    · rw [← List.flatMap_def]
      exact Scan.flatMap_source_piecesFrom .content source
  · intro h
    rw [hreports] at h
    exact Scan.getLast?_of_cutIn_comment 0 h

end MarkupTemplate
