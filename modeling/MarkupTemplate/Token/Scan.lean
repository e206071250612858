import MarkupTemplate.Diagnostic
import MarkupTemplate.Token

/-!
# Scanning a source

The source is cut into pieces from left to right, each a lexeme with the characters it was read from.
In ordinary content `{@` opens a raw-code block, `<!--` a comment, any other `<` a tag, and all
else is text. After the opening tag of a script or style element the content is raw: only raw-code
blocks and the closing tag of that very element are seen in it.

A tag ends at the first `>` outside quotes, and a quote that follows a backslash neither opens nor
closes. Raw-code blocks nest. Where the source ends inside a tag, a comment or a block, the piece
holds what there is and records what was cut short.
-/

namespace MarkupTemplate

inductive Construct
  | tag
  | comment
  | block
deriving DecidableEq

namespace Construct

def code : Construct → Text
  | tag => "eof-in-tag".toList
  | comment => "eof-in-comment".toList
  | block => "eof-in-raw-block".toList

def message : Construct → Text
  | tag => "tag is not closed before end of input".toList
  | comment => "comment is not closed before end of input".toList
  | block => "raw-code block is not closed before end of input".toList

end Construct

structure Piece where
  lexeme : Lexeme
  source : Text
  cut : Option Construct
deriving DecidableEq

namespace Scan

inductive Mode
  | content
  | rawText (element : Text)
deriving DecidableEq

def rawTextElements : List Text :=
  ["script".toList, "style".toList]

/-- The part of a text that belongs to a construct, what follows it, and whether its end was seen. -/
structure Span where
  taken : Text
  rest : Text
  closed : Bool

namespace Span

def push (c : Char) (span : Span) : Span :=
  { span with taken := c :: span.taken }

def cut (span : Span) (construct : Construct) : Option Construct :=
  if span.closed then none else some construct

end Span

/-- The rest of a tag up to its closing bracket. `previous` is the character just passed, and `quote`
the quote inside which the rest begins. -/
def tagSpan (previous : Char) (quote : Option Char) : Text → Span
  | [] => ⟨[], [], false⟩
  | c :: s =>
    match quote with
    | some q => (tagSpan c (if c = q ∧ previous ≠ '\\' then none else some q) s).push c
    | none =>
      if (c = '"' ∨ c = '\'') ∧ previous ≠ '\\' then (tagSpan c (some c) s).push c
      else if c = '>' then ⟨[c], s, true⟩
      else (tagSpan c none s).push c

/-- The rest of a raw-code block inside `depth + 1` open blocks. -/
def blockSpan (depth : Nat) : Text → Span
  | [] => ⟨[], [], false⟩
  | '{' :: '@' :: s => ((blockSpan (depth + 1) s).push '@').push '{'
  | c :: s =>
    if c = '}' then
      match depth with
      | 0 => ⟨[c], s, true⟩
      | depth + 1 => (blockSpan depth s).push c
    else (blockSpan depth s).push c

/-- Whether the closing tag of the raw element `name` begins here. -/
def closesRawText (name s : Text) : Bool :=
  match List.isPrefixOf? ['<', '/'] s with
  | some s =>
    match Text.dropWord? name s with
    | some (_, []) => true
    | some (_, c :: _) => isBlank c || c == '/' || c == '>'
    | none => false
  | none => false

/-- Whether text ends here. -/
def interrupts (mode : Mode) (s : Text) : Bool :=
  match s with
  | '{' :: '@' :: _ => true
  | '<' :: _ =>
    match mode with
    | .content => true
    | .rawText name => closesRawText name s
  | _ => false

def textRun (mode : Mode) : Text → Text × Text
  | [] => ([], [])
  | c :: s =>
    if interrupts mode (c :: s) then ([], c :: s)
    else
      let run := textRun mode s
      (c :: run.1, run.2)

def modeAfter (tag : Tag) : Mode :=
  if !tag.closing && !tag.selfClosing && rawTextElements.contains (Text.lower tag.name) then
    .rawText (Text.lower tag.name)
  else .content

structure Step where
  piece : Piece
  rest : Text
  mode : Mode

def blockStep (mode : Mode) (s : Text) : Step :=
  let span := blockSpan 0 s
  let raw := '{' :: '@' :: span.taken
  ⟨⟨.code raw, raw, span.cut .block⟩, span.rest, mode⟩

def commentStep (s : Text) : Step :=
  match Text.cut? ['-', '-', '>'] s with
  | some (data, rest) =>
    ⟨⟨.comment data, "<!--".toList ++ data ++ "-->".toList, none⟩, rest, .content⟩
  | none => ⟨⟨.comment s, "<!--".toList ++ s, some .comment⟩, [], .content⟩

def tagStep (s : Text) : Step :=
  let span := tagSpan '<' none s
  let raw := '<' :: span.taken
  ⟨⟨.tag raw (.read raw), raw, span.cut .tag⟩, span.rest, modeAfter (.read raw)⟩

def textStep (mode : Mode) (c : Char) (s : Text) : Step :=
  let run := textRun mode s
  ⟨⟨.text (c :: run.1), c :: run.1, none⟩, run.2, mode⟩

/-- The piece at the head of `c :: s`. -/
def step (mode : Mode) (c : Char) (s : Text) : Step :=
  if interrupts mode (c :: s) then
    match c, s with
    | '{', _ :: s => blockStep mode s
    | _, '!' :: '-' :: '-' :: s => commentStep s
    | _, s => tagStep s
  else textStep mode c s

theorem taken_append_rest_tagSpan (previous : Char) (quote : Option Char) (s : Text) :
    (tagSpan previous quote s).taken ++ (tagSpan previous quote s).rest = s := by
  induction s generalizing previous quote with
  | nil => rfl
  | cons c s ih =>
    unfold tagSpan
    repeat' split
    all_goals simp [Span.push, ih]

theorem taken_append_rest_blockSpan (depth : Nat) (s : Text) :
    (blockSpan depth s).taken ++ (blockSpan depth s).rest = s := by
  fun_induction blockSpan depth s <;> simp_all [Span.push]

theorem append_textRun (mode : Mode) (s : Text) : (textRun mode s).1 ++ (textRun mode s).2 = s := by
  induction s with
  | nil => rfl
  | cons c s ih =>
    unfold textRun
    split <;> simp [ih]

theorem cases_of_interrupts {mode : Mode} {c : Char} {s : Text}
    (h : interrupts mode (c :: s) = true) : (c = '{' ∧ ∃ t, s = '@' :: t) ∨ c = '<' := by
  unfold interrupts at h
  split at h
  · next he =>
    cases he
    exact .inl ⟨rfl, _, rfl⟩
  · next he =>
    cases he
    exact .inr rfl
  · simp at h

theorem source_append_blockStep (mode : Mode) (s : Text) :
    (blockStep mode s).piece.source ++ (blockStep mode s).rest = '{' :: '@' :: s := by
  simp [blockStep, taken_append_rest_blockSpan]

theorem source_append_commentStep (s : Text) :
    (commentStep s).piece.source ++ (commentStep s).rest = '<' :: '!' :: '-' :: '-' :: s := by
  unfold commentStep
  split
  · next h => simp [Text.append_of_cut? h]
  · simp

theorem source_append_tagStep (s : Text) :
    (tagStep s).piece.source ++ (tagStep s).rest = '<' :: s := by
  simp [tagStep, taken_append_rest_tagSpan]

theorem source_append_textStep (mode : Mode) (c : Char) (s : Text) :
    (textStep mode c s).piece.source ++ (textStep mode c s).rest = c :: s := by
  simp [textStep, append_textRun]

theorem source_append_step (mode : Mode) (c : Char) (s : Text) :
    (step mode c s).piece.source ++ (step mode c s).rest = c :: s := by
  unfold step
  split
  · next hi =>
    have hc := cases_of_interrupts hi
    split
    · rcases hc with ⟨_, u, hu⟩ | hc
      · cases hu
        exact source_append_blockStep mode _
      · simp at hc
    · rcases hc with ⟨_, u, hu⟩ | rfl
      · simp at hu
      · exact source_append_commentStep _
    · next hblock =>
      rcases hc with ⟨rfl, u, rfl⟩ | rfl
      · exact (hblock _ _ rfl rfl).elim
      · exact source_append_tagStep s
  · exact source_append_textStep mode c s

theorem source_step_ne_nil (mode : Mode) (c : Char) (s : Text) :
    (step mode c s).piece.source ≠ [] := by
  unfold step
  split
  · split
    · simp [blockStep]
    · unfold commentStep
      split <;> simp
    · simp [tagStep]
  · simp [textStep]

theorem length_rest_step (mode : Mode) (c : Char) (s : Text) :
    (step mode c s).rest.length < (c :: s).length := by
  have h := congrArg List.length (source_append_step mode c s)
  have := List.length_pos_iff.2 (source_step_ne_nil mode c s)
  simp only [List.length_append] at h
  omega

def piecesFrom (mode : Mode) (s : Text) : List Piece :=
  match s with
  | [] => []
  | c :: s =>
    let next := step mode c s
    next.piece :: piecesFrom next.mode next.rest
termination_by s.length
decreasing_by exact length_rest_step mode c s

theorem flatMap_source_piecesFrom (mode : Mode) (s : Text) :
    (piecesFrom mode s).flatMap Piece.source = s := by
  fun_induction piecesFrom mode s with
  | case1 => rfl
  | case2 mode c s next ih =>
    rw [List.flatMap_cons, ih]
    exact source_append_step mode c s

def tokensFrom (position : Nat) : List Piece → List Token
  | [] => []
  | piece :: rest =>
    ⟨piece.lexeme, position⟩ :: tokensFrom (position + piece.source.length) rest

def cutsFrom (position : Nat) : List Piece → List (Construct × Nat)
  | [] => []
  | piece :: rest =>
    match piece.cut with
    | some construct =>
      (construct, position) :: cutsFrom (position + piece.source.length) rest
    | none => cutsFrom (position + piece.source.length) rest

def pieces (source : Text) : List Piece :=
  piecesFrom .content source

def cuts (source : Text) : List (Construct × Nat) :=
  cutsFrom 0 (pieces source)

def diagnostic (cut : Construct × Nat) : Diagnostic :=
  ⟨cut.1.code, some cut.2, cut.1.message⟩

def diagnostics (source : Text) : List Diagnostic :=
  (cuts source).map diagnostic

end Scan

def tokenize (source : Text) : List Token :=
  Scan.tokensFrom 0 (Scan.pieces source)

end MarkupTemplate
