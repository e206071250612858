import MarkupTemplate.Proofs.Observers
import MarkupTemplate.Proofs.ScanPrefix
import MarkupTemplate.Proofs.ShapePreservation

/-!
# Private comments

What stands behind a double slash in a comment is private: it does not reach the page. Publishing a
source takes it out. Building a tree commutes with publishing, and the published tree is rendered to the
same page and declares the same assets, so what a source compiles to is decided by what it publishes. A
comment ends where it is read to end, so it also keeps apart what stands before it and what follows: two
sources that differ in the private part of one comment compile to the same text, or fail in the same way.
-/

namespace MarkupTemplate

namespace Text

theorem partition_fst_partition {mark : Text} (hm : mark ≠ []) (s : Text) :
    (partition mark (partition mark s).1).1 = (partition mark s).1 := by
  have hnone : ¬ mark <:+: (partition mark s).1 := by
    unfold partition
    cases hc : cut? mark s with
    | none => exact cut?_eq_none_iff.1 hc
    | some found =>
      intro hi
      exact not_infix_of_cut? hm hc (hi.trans (List.prefix_append _ _).isInfix)
  rw [partition, cut?_eq_none_iff.2 hnone]
  rfl

theorem partition_fst_append {mark : Text} (hm : mark ≠ []) (a b : Text) :
    (partition mark (a ++ mark ++ b)).1 = (partition mark (a ++ mark)).1 := by
  cases hc : cut? mark (a ++ mark) with
  | none => exact absurd ⟨a, [], List.append_nil _⟩ (cut?_eq_none_iff.1 hc)
  | some found => rw [partition, partition, hc, cut?_append_of_some hm hc b]; rfl

theorem infix_of_infix_concat {mark s : Text} {c d : Char} (hcd : c ≠ d)
    (h : mark ++ [c] <:+: s ++ [d]) : mark ++ [c] <:+: s := by
  rcases List.infix_concat_iff.1 h with hs | hi
  · rcases List.suffix_concat_iff.1 hs with hnil | ⟨t, ht, -⟩
    · simp at hnil
    · simp [hcd] at ht
  · exact hi

theorem not_infix_commentEnd {a b : Text} (ha : ¬ ['-', '-', '>'] <:+: a)
    (hb : ¬ ['-', '-', '>'] <:+: b) :
    ¬ ['-', '-', '>'] <:+: a ++ ['/', '/'] ++ b ++ ['-', '-'] := by
  intro h
  have hslash : '/' ∉ ['-', '-', '>'] := by decide
  have hdash : ∀ s, ['-', '-', '>'] <:+: s ++ ['-'] → ['-', '-', '>'] <:+: s :=
    fun s => @infix_of_infix_concat ['-', '-'] s '>' '-' (by decide)
  have hsplit : a ++ ['/', '/'] ++ b ++ ['-', '-'] = a ++ '/' :: ([] ++ '/' :: (b ++ ['-'] ++ ['-'])) := by
    simp
  rw [hsplit] at h
  rcases infix_of_infix_append_cons hslash h with h | h
  · exact ha h
  · rcases infix_of_infix_append_cons hslash h with h | h
    · simp at h
    · exact hb (hdash _ (hdash _ h))

end Text

def publicPart (data : Text) : Text :=
  (Text.partition ['/', '/'] data).1

def Lexeme.published : Lexeme → Lexeme
  | .comment data => .comment (publicPart data)
  | lexeme => lexeme

/-- The lexemes of tokens with the private parts of comments taken out. -/
def publishedLexemes (tokens : List Token) : List Lexeme :=
  tokens.map fun token => token.lexeme.published

mutual

def Node.published : Node → Node
  | .comment data => .comment (publicPart data)
  | .element name attributes children => .element name attributes (Node.publishedAll children)
  | node => node

def Node.publishedAll : List Node → List Node
  | [] => []
  | node :: nodes => Node.published node :: Node.publishedAll nodes

end

theorem Node.publishedAll_append (a b : List Node) :
    publishedAll (a ++ b) = publishedAll a ++ publishedAll b := by
  induction a with
  | nil => rfl
  | cons node a ih => rw [List.cons_append, publishedAll, publishedAll, ih, List.cons_append]

def OpenElement.published (e : OpenElement) : OpenElement :=
  { e with children := Node.publishedAll e.children }

namespace Builder

def published (builder : Builder) : Builder :=
  { builder.quiet with
    roots := Node.publishedAll builder.roots
    path := builder.path.map OpenElement.published }

theorem published_append (builder : Builder) (node : Node) :
    (builder.append node).published = builder.published.append node.published := by
  cases hp : builder.path <;>
    simp [append, published, quiet, hp, OpenElement.published, Node.publishedAll_append,
      Node.publishedAll]

theorem published_leave (builder : Builder) : builder.leave.published = builder.published.leave := by
  cases hp : builder.path with
  | nil => simp [leave, published, quiet, hp]
  | cons inner outer =>
    have hleave : builder.leave = { builder with path := outer }.append inner.close := by
      rw [leave, hp]
    rw [hleave, published_append]
    simp [leave, published, quiet, hp]
    rfl

theorem published_leaveTimes (n : Nat) (builder : Builder) :
    (leaveTimes n builder).published = leaveTimes n builder.published := by
  induction n generalizing builder with
  | zero => rfl
  | succ n ih => rw [leaveTimes, leaveTimes, ih, published_leave]

theorem published_noteAll (builder : Builder) (ds : List Diagnostic) :
    (builder.noteAll ds).published = builder.published := by
  have hquiet : ∀ builder : Builder, builder.published = builder.quiet.published := fun _ => rfl
  rw [hquiet, quiet_noteAll, ← hquiet]

theorem insideOf?_published (name : Text) (path : List OpenElement) :
    insideOf? name (path.map OpenElement.published) =
      (insideOf? name path).map (List.map OpenElement.published) := by
  induction path with
  | nil => rfl
  | cons inner outer ih =>
    have hname : inner.published.name = inner.name := rfl
    rw [List.map_cons, insideOf?, insideOf?, hname, ih]
    split <;> simp [Function.comp_def]

theorem published_close (builder : Builder) (name : Text) (position other : Nat) :
    (builder.close name position).published = builder.published.close name other := by
  have hpath : builder.published.path = builder.path.map OpenElement.published := rfl
  have hquiet : builder.published.quiet = builder.published := rfl
  rw [← hquiet, close_quiet, hquiet, hpath, insideOf?_published, close]
  cases insideOf? name builder.path with
  | none => exact published_noteAll builder [_]
  | some skipped => simp [published_leaveTimes, published_noteAll]

theorem published_add (builder : Builder) (token : Token) :
    (builder.add token).published = builder.published.add ⟨token.lexeme.published, 0⟩ := by
  obtain ⟨lexeme, position⟩ := token
  cases lexeme with
  | text data => exact published_append builder _
  | comment data => exact published_append builder _
  | code raw => exact published_append builder _
  | tag raw tag =>
    simp only [add, Lexeme.published, addTag]
    split_ifs
    · exact published_append builder _
    · rfl
    · exact published_close builder _ _ _
    · exact published_append builder _
    · rfl

theorem published_addAll (builder : Builder) (tokens : List Token) :
    (builder.addAll tokens).published =
      builder.published.addAll ((publishedLexemes tokens).map fun lexeme => ⟨lexeme, 0⟩) := by
  induction tokens generalizing builder with
  | nil => rfl
  | cons token tokens ih =>
    rw [addAll, List.foldl_cons]
    refine (ih (builder.add token)).trans ?_
    rw [published_add]
    rfl

theorem published_finish (builder : Builder) : builder.finish.published = builder.published.finish := by
  have hlength : builder.published.path.length = builder.path.length := List.length_map ..
  have hquiet : builder.published.quiet = builder.published := rfl
  rw [finish, published_leaveTimes, published_noteAll, finish, hlength, ← hquiet, noteAll_quiet]

end Builder

theorem publishedAll_documentOf (tokens : List Token) :
    Node.publishedAll (documentOf tokens) =
      documentOf ((publishedLexemes tokens).map fun lexeme => ⟨lexeme, 0⟩) := by
  have hbuild : (build false tokens).published =
      build false ((publishedLexemes tokens).map fun lexeme => ⟨lexeme, 0⟩) := by
    rw [build, Builder.published_finish, Builder.published_addAll]
    rfl
  exact congrArg Builder.roots hbuild

theorem Render.comment_publicPart (data : Text) : Render.comment (publicPart data) = Render.comment data := by
  rw [Render.comment, publicPart, Text.partition_fst_partition (by decide)]
  rfl

mutual

theorem render_published : ∀ node : Node, render node.published = render node
  | .text data => rfl
  | .comment data => by
    rw [Node.published, render_comment, render_comment, Render.comment_publicPart]
  | .code data => rfl
  | .element name attributes children => by
    rw [Node.published, render_element, render_element, renderAll_publishedAll children]

theorem renderAll_publishedAll : ∀ nodes : List Node, renderAll (Node.publishedAll nodes) = renderAll nodes
  | [] => rfl
  | node :: nodes => by
    rw [Node.publishedAll, renderAll_cons, renderAll_cons, render_published node,
      renderAll_publishedAll nodes]

end

theorem Session.generate_publishedAll (session : Session) (document : Document) :
    session.generate (Node.publishedAll document) = session.generate document := by
  rw [Session.generate, renderAll_publishedAll]
  rfl

/-- What a source publishes decides what it compiles to. -/
theorem compileText_eq (strict injectAssets : Bool) (source : Text) :
    compileText strict injectAssets source =
      (((scan strict source).map publishedLexemes).mapError Failure.template).bind fun lexemes =>
        ((Session.start injectAssets).generate
          (documentOf (lexemes.map fun lexeme => ⟨lexeme, 0⟩))).outcome := by
  rw [compileText, outcome_compile]
  cases scan strict source with
  | error e => rfl
  | ok tokens =>
    have hgenerate : (Session.start injectAssets).generate
        (documentOf ((publishedLexemes tokens).map fun lexeme => ⟨lexeme, 0⟩)) =
        (Session.start injectAssets).generate (documentOf tokens) := by
      rw [← publishedAll_documentOf, Session.generate_publishedAll]
    have hbind : ∀ f : List Lexeme → Except Failure Text,
        (((Except.ok tokens).map publishedLexemes).mapError Failure.template).bind f =
          f (publishedLexemes tokens) := fun _ => rfl
    rw [hbind, hgenerate]
    dsimp only
    cases ((Session.start injectAssets).generate (documentOf tokens)).outcome <;> rfl

theorem publishedLexemes_tokenize (source : Text) :
    publishedLexemes (tokenize source) =
      (Scan.pieces source).map fun piece => piece.lexeme.published := by
  have hmap := congrArg (List.map Lexeme.published) (lexemes_tokenize source)
  rwa [List.map_map, List.map_map] at hmap

namespace Scan.Separates

variable {before : Text}

theorem cutError_append (before s : Text) (cut : Construct × Nat) :
    cutError (before ++ s) (cut.1, before.length + cut.2) = cutError s cut := by
  rw [cutError, List.drop_length_add_append]
  rfl

theorem publishedLexemes_append (h : Separates before) (s : Text) :
    publishedLexemes (tokenize (before ++ s)) =
      publishedLexemes (tokenize before) ++ publishedLexemes (tokenize s) := by
  simp only [publishedLexemes_tokenize, h.pieces_append, List.map_append]

theorem scan_append (h : Separates before) (strict : Bool) (s : Text) :
    (scan strict (before ++ s)).map publishedLexemes =
      (scan strict s).map fun tokens =>
        publishedLexemes (tokenize before) ++ publishedLexemes tokens := by
  have hok : (Except.ok (tokenize (before ++ s)) : Except TemplateError _).map publishedLexemes =
      (Except.ok (tokenize s)).map fun tokens =>
        publishedLexemes (tokenize before) ++ publishedLexemes tokens :=
    congrArg Except.ok (h.publishedLexemes_append s)
  cases strict with
  | false =>
    rw [scan_eq, scan_eq]
    exact hok
  | true =>
    have hcuts := h.cuts_append s
    cases hc : cuts s with
    | nil =>
      rw [hc] at hcuts
      simpa [scan_eq, hcuts, hc] using hok
    | cons cut cuts =>
      rw [hc] at hcuts
      simp [scan_eq, hcuts, hc, cutError_append, Except.map]

end Scan.Separates

/-- Sources that differ in the private part of one comment in content compile to the same text, or fail
with the same error about the same part of the source. -/
theorem compileText_privateComment {before a b b' : Text} (hbefore : Scan.EndsInContent before)
    (ha : ¬ "-->".toList <:+: a) (hb : ¬ "-->".toList <:+: b) (hb' : ¬ "-->".toList <:+: b')
    (after : Text) (strict injectAssets : Bool) :
    compileText strict injectAssets
        (before ++ "<!--".toList ++ a ++ "//".toList ++ b ++ "-->".toList ++ after) =
      compileText strict injectAssets
        (before ++ "<!--".toList ++ a ++ "//".toList ++ b' ++ "-->".toList ++ after) := by
  have hsource : ∀ b, before ++ "<!--".toList ++ a ++ "//".toList ++ b ++ "-->".toList ++ after =
      before ++ (Scan.commentPiece (a ++ ['/', '/'] ++ b)).source ++ after := by
    intro b
    simp [Scan.commentPiece]
  have hscan : ∀ b, ¬ "-->".toList <:+: b →
      (scan strict (before ++ (Scan.commentPiece (a ++ ['/', '/'] ++ b)).source ++ after)).map
          publishedLexemes =
        (scan strict after).map fun tokens => publishedLexemes (tokenize before) ++
          Lexeme.comment (publicPart (a ++ ['/', '/'])) :: publishedLexemes tokens := by
    intro b hb
    obtain ⟨hseparates, hpieces⟩ := hbefore.comment (Text.not_infix_commentEnd ha hb)
    have hcomment : publicPart (a ++ ['/', '/'] ++ b) = publicPart (a ++ ['/', '/']) :=
      Text.partition_fst_append (by decide) a b
    have hbefore : publishedLexemes
        (tokenize (before ++ (Scan.commentPiece (a ++ ['/', '/'] ++ b)).source)) =
          publishedLexemes (tokenize before) ++ [.comment (publicPart (a ++ ['/', '/']))] := by
      rw [publishedLexemes_tokenize, hpieces, publishedLexemes_tokenize, List.map_append, ← hcomment]
      rfl
    rw [hseparates.scan_append, hbefore]
    simp only [List.append_assoc, List.singleton_append]
  rw [hsource, hsource, compileText_eq, compileText_eq, hscan b hb, hscan b' hb']

def openHead : Text :=
  "<html><head><load target=\"a.css\">".toList

def privateNote : Text :=
  " </head>\x7b@ eval($x); \x7d<script> ".toList

theorem compileText_privateComment_openHead :
    Scan.EndsInContent openHead ∧
      compileText true true (openHead ++ "<!--".toList ++ " a ".toList ++ "//".toList ++ privateNote ++
          "-->".toList ++ "</head><p".toList) =
        compileText true true (openHead ++ "<!--".toList ++ " a ".toList ++ "//".toList ++ [] ++
          "-->".toList ++ "</head><p".toList) ∧
      compileText false true (openHead ++ "<!--".toList ++ " a ".toList ++ "//".toList ++ privateNote ++
          "-->".toList ++ "</head><p".toList) =
        compileText false true (openHead ++ "<!--".toList ++ " a ".toList ++ "//".toList ++ [] ++
          "-->".toList ++ "</head><p".toList) := by
  have hopen : Scan.EndsInContent openHead := ⟨by decide +kernel, by decide +kernel⟩
  have hnote : ¬ "-->".toList <:+: privateNote := by decide +kernel
  have hshown : ¬ "-->".toList <:+: " a ".toList := by decide
  have hnone : ¬ "-->".toList <:+: ([] : Text) := by decide
  exact ⟨hopen, compileText_privateComment hopen hshown hnote hnone _ true true,
    compileText_privateComment hopen hshown hnote hnone _ false true⟩

end MarkupTemplate
