import MarkupTemplate.Proofs.Scan
import MarkupTemplate.Proofs.Text

/-!
# What the end of the source cuts short

A tag, a comment or a raw-code block is cut short when the source from its first character on does not
hold its end: every closing bracket stands inside quotes, there is no closing delimiter, or no closing
brace is left over for the outermost block. Scanning records exactly this. A construct that is cut short
takes all that is left of the source, so it is the last, and there is at most one.
-/

namespace MarkupTemplate

/-- The quote inside which the text of a tag stops. It begins behind the character `previous`, inside
`quote`. -/
def quoteAfter (previous : Char) (quote : Option Char) : Text → Option Char
  | [] => quote
  | c :: s =>
    match quote with
    | some q => quoteAfter c (if c = q ∧ previous ≠ '\\' then none else some q) s
    | none => quoteAfter c (if (c = '"' ∨ c = '\'') ∧ previous ≠ '\\' then some c else none) s

def openings : Text → Nat
  | [] => 0
  | '{' :: '@' :: s => openings s + 1
  | _ :: s => openings s

/-- A construct begins at the head of a text that does not hold its end. -/
def Construct.Unfinished (construct : Construct) (s : Text) : Prop :=
  match construct with
  | tag => ∃ body, s = '<' :: body ∧ ∀ a b, body = a ++ '>' :: b → quoteAfter '<' none a ≠ none
  | comment => ∃ body, s = "<!--".toList ++ body ∧ ¬ "-->".toList <:+: body
  | block => ∃ body, s = ['{', '@'] ++ body ∧
      ∀ a b, body = a ++ '}' :: b → a.count '}' < openings a

def Token.isOf (construct : Construct) (token : Token) : Bool :=
  match construct with
  | .tag => token.kind.isTag
  | .comment => token.kind == .comment
  | .block => token.kind == .code

structure Token.CutShort (source : Text) (construct : Construct) (token : Token) : Prop where
  isOf : token.isOf construct = true
  unfinished : construct.Unfinished (source.drop token.position)

namespace Scan

theorem forall_split_cons {P : Text → Prop} {c d : Char} {s : Text} :
    (∀ a b, c :: s = a ++ d :: b → P a) ↔
      (c = d → P []) ∧ ∀ a b, s = a ++ d :: b → P (c :: a) := by
  constructor
  · intro h
    refine ⟨fun hc => h [] s (by simp [hc]), fun a b hs => h (c :: a) b (by simp [hs])⟩
  · intro ⟨hnil, hcons⟩ a b he
    cases a with
    | nil => exact hnil (List.cons.inj he).1
    | cons x a =>
      simp only [List.cons_append, List.cons.injEq] at he
      exact he.1 ▸ hcons a b he.2

theorem tagSpan_open_iff {previous : Char} {quote : Option Char} {s : Text} :
    (tagSpan previous quote s).closed = false ↔
      ∀ a b, s = a ++ '>' :: b → quoteAfter previous quote a ≠ none := by
  induction s generalizing previous quote with
  | nil => simp [tagSpan]
  | cons c s ih =>
    rw [forall_split_cons]
    cases quote with
    | some q => simp [tagSpan, Span.push, quoteAfter, ih]
    | none =>
      simp only [tagSpan, quoteAfter]
      split_ifs with hquote hbracket
      · have hc : c ≠ '>' := by
          rintro rfl
          simp at hquote
        simp [Span.push, ih, hc]
      · simp [hbracket]
      · simp [Span.push, ih, hbracket]

theorem openings_cons {c : Char} {s : Text} (h : c = '{' → s.head? ≠ some '@') :
    openings (c :: s) = openings s := by
  rw [openings]
  rintro t rfl rfl
  exact h rfl rfl

theorem openings_split {c : Char} {s a b : Text} (hs : ∀ t, c = '{' → s = '@' :: t → False)
    (he : s = a ++ '}' :: b) : openings (c :: a) = openings a := by
  refine openings_cons fun hc ha => ?_
  obtain ⟨t, rfl⟩ := List.head?_eq_some_iff.1 ha
  exact hs _ hc he

theorem blockSpan_open_iff {depth : Nat} {s : Text} :
    (blockSpan depth s).closed = false ↔
      ∀ a b, s = a ++ '}' :: b → a.count '}' < depth + openings a := by
  fun_induction blockSpan depth s with
  | case1 => simp
  | case2 depth s ih =>
    simp only [Span.push, forall_split_cons, ih]
    simp [openings, Nat.add_assoc, Nat.add_comm 1]
  | case3 s hs => simp [forall_split_cons, openings]
  | case4 s depth hs ih =>
    simp only [Span.push, forall_split_cons, ih]
    have hclose : ∀ a, openings ('}' :: a) = openings a := fun a => openings_cons (by simp)
    simp [hclose, openings, Nat.add_right_comm _ 1]
  | case5 depth c s hs hc ih =>
    simp only [Span.push, forall_split_cons, ih]
    refine ⟨fun h => ⟨fun he => absurd he hc, fun a b he => ?_⟩, fun h a b he => ?_⟩
    · have hopen : openings (c :: a) = openings a := openings_split hs he
      simpa [hopen, hc] using h a b he
    · have hopen : openings (c :: a) = openings a := openings_split hs he
      simpa [hopen, hc] using h.2 a b he

theorem step_cut_iff (position : Nat) {mode : Mode} {c : Char} {s : Text} {construct : Construct} :
    (step mode c s).piece.cut = some construct ↔
      Token.isOf construct ⟨(step mode c s).piece.lexeme, position⟩ = true ∧
        construct.Unfinished (c :: s) := by
  rcases step_cases mode c s with
    ⟨t, rfl, rfl, he⟩ | ⟨t, rfl, rfl, -, he⟩ | ⟨rfl, hs, -, he⟩ | ⟨-, he⟩
  · have hopen : Construct.Unfinished .block ('{' :: '@' :: t) ↔
        (blockSpan 0 t).closed = false := by
      simp [Construct.Unfinished, blockSpan_open_iff]
    cases construct <;>
      simp [he, blockStep, Span.cut, Token.isOf, Token.kind, Token.Kind.isTag, hopen]
  · have hopen : Construct.Unfinished .comment ('<' :: '!' :: '-' :: '-' :: t) ↔
        Text.cut? ['-', '-', '>'] t = none := by
      simp [Construct.Unfinished, Text.cut?_eq_none_iff]
    rw [he, commentStep]
    cases hc : Text.cut? ['-', '-', '>'] t <;> rw [hc] at hopen <;>
      cases construct <;> simp [Token.isOf, Token.kind, Token.Kind.isTag, hopen]
  · have hopen : Construct.Unfinished .tag ('<' :: s) ↔ (tagSpan '<' none s).closed = false := by
      simp [Construct.Unfinished, tagSpan_open_iff]
    have hkind : ∀ raw t position, (Token.kind ⟨.tag raw t, position⟩).isTag = true ∧
        Token.kind ⟨.tag raw t, position⟩ ≠ .comment ∧ Token.kind ⟨.tag raw t, position⟩ ≠ .code := by
      intro raw t position
      simp only [Token.kind]
      split <;> decide
    cases construct <;> simp [he, tagStep, Span.cut, Token.isOf, hkind, hopen]
  · cases construct <;> simp [he, textStep, Token.isOf, Token.kind, Token.Kind.isTag]

theorem length_cutsFrom_le (mode : Mode) (s : Text) (position : Nat) :
    (cutsFrom position (piecesFrom mode s)).length ≤ 1 := by
  fun_induction piecesFrom mode s generalizing position with
  | case1 => simp [cutsFrom]
  | case2 mode c s next ih =>
    cases hc : next.piece.cut with
    | none => simpa [cutsFrom, hc] using ih _
    | some construct =>
      have hrest : next.rest = [] := rest_step_of_cut (by simp [next, hc])
      simp [cutsFrom, hc, hrest, piecesFrom_nil]

theorem mem_cutsFrom_cons {construct : Construct} {position start : Nat} {piece : Piece}
    {rest : List Piece} :
    (construct, position) ∈ cutsFrom start (piece :: rest) ↔
      (piece.cut = some construct ∧ start = position) ∨
        (construct, position) ∈ cutsFrom (start + piece.source.length) rest := by
  cases hc : piece.cut with
  | none => simp [cutsFrom, hc]
  | some other => simp [cutsFrom, hc, eq_comm]

theorem mem_cutsFrom_iff (mode : Mode) (s before : Text) {construct : Construct} {position : Nat} :
    (construct, position) ∈ cutsFrom before.length (piecesFrom mode s) ↔
      ∃ token, (tokensFrom before.length (piecesFrom mode s)).getLast? = some token ∧
        token.position = position ∧ token.CutShort (before ++ s) construct := by
  fun_induction piecesFrom mode s generalizing before with
  | case1 => simp [cutsFrom, tokensFrom]
  | case2 mode c s next ih =>
    rw [mem_cutsFrom_cons, tokensFrom]
    have hsource : before ++ c :: s = before ++ next.piece.source ++ next.rest := by
      rw [List.append_assoc, source_append_step]
    cases hr : next.rest with
    | nil =>
      -- this piece is the last, and it holds what is left of the source
      have hdrop : (before ++ c :: s).drop before.length = c :: s := by simp
      have hcut : Token.CutShort (before ++ c :: s) construct ⟨next.piece.lexeme, before.length⟩ ↔
          next.piece.cut = some construct := by
        rw [step_cut_iff before.length]
        exact ⟨fun h => ⟨h.isOf, hdrop ▸ h.unfinished⟩, fun h => ⟨h.1, hdrop.symm ▸ h.2⟩⟩
      simp [piecesFrom_nil, cutsFrom, tokensFrom, ← hcut, and_comm]
    | cons d t =>
      -- something follows, so this piece is complete and not the last
      have hcut : next.piece.cut = none := by
        by_contra hne
        exact List.cons_ne_nil d t (hr.symm.trans (rest_step_of_cut hne))
      have hih := ih (before ++ next.piece.source)
      rw [List.length_append, ← hsource] at hih
      obtain ⟨token, rest, hrest⟩ : ∃ token rest,
          tokensFrom (before.length + next.piece.source.length) (piecesFrom next.mode next.rest) =
            token :: rest := by
        rw [hr, piecesFrom_cons, tokensFrom]
        exact ⟨_, _, rfl⟩
      rw [← hr, hih, hcut, hrest, List.getLast?_cons_cons]
      simp

/-- Scanning records at most one construct as cut short, and that exactly where the last token is. -/
theorem cuts_eq (source : Text) :
    (cuts source = [] ∧ ∀ token construct, (tokenize source).getLast? = some token →
      ¬ token.CutShort source construct) ∨
    ∃ token construct, (tokenize source).getLast? = some token ∧ token.CutShort source construct ∧
      cuts source = [(construct, token.position)] := by
  have hmem : ∀ construct position, (construct, position) ∈ cuts source ↔ _ :=
    fun construct position => mem_cutsFrom_iff .content source []
  have hone : (cuts source).length ≤ 1 := length_cutsFrom_le .content source 0
  cases hc : cuts source with
  | nil =>
    refine .inl ⟨rfl, fun token construct hlast hcut => ?_⟩
    have hreported := (hmem construct token.position).2 ⟨token, hlast, rfl, hcut⟩
    simp [hc] at hreported
  | cons cut rest =>
    obtain ⟨construct, position⟩ := cut
    obtain ⟨token, hlast, hposition, hcut⟩ := (hmem construct position).1 (by simp [hc])
    have hrest : rest = [] := by
      rw [hc, List.length_cons] at hone
      exact List.length_eq_zero_iff.1 (by omega)
    exact .inr ⟨token, construct, hlast, hcut, by rw [hposition, hrest]⟩

end Scan

end MarkupTemplate
