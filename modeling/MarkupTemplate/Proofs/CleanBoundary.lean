import MarkupTemplate.Proofs.ScanPrefix
import MarkupTemplate.Proofs.ShapePreservation

/-!
# Scanning across a clean boundary

A source ends cleanly if nothing is open at its end: no tag, comment or block is cut short, the content is
ordinary, and no run of text is still going on. Whatever is put behind it is then scanned as if it stood
alone, and the tokens and diagnostics of the whole are those of the two parts, the second ones moved by the
length of the first part.
-/

namespace MarkupTemplate

def Token.shift (offset : Nat) (token : Token) : Token :=
  { token with position := offset + token.position }

def Diagnostic.shift (offset : Nat) (d : Diagnostic) : Diagnostic :=
  { d with position := d.position.map fun position => offset + position }

namespace Scan

theorem tokensFrom_append (position : Nat) (ps qs : List Piece) :
    tokensFrom position (ps ++ qs) =
      tokensFrom position ps ++ tokensFrom (position + (ps.flatMap Piece.source).length) qs := by
  induction ps generalizing position with
  | nil => rfl
  | cons piece ps ih =>
    have hrest := ih (position + piece.source.length)
    simp [tokensFrom, hrest, Nat.add_assoc]

theorem tokensFrom_add (offset position : Nat) (ps : List Piece) :
    tokensFrom (offset + position) ps = (tokensFrom position ps).map (Token.shift offset) := by
  induction ps generalizing position with
  | nil => rfl
  | cons piece ps ih =>
    have hrest := ih (position + piece.source.length)
    simp [tokensFrom, Token.shift, Nat.add_assoc, hrest]

/-- Scanning `source` alone ends in ordinary content, with no diagnostic and behind no text. -/
structure EndsCleanly (source : Text) : Prop where
  diagnostics : diagnostics source = []
  content : modeAtEnd .content source = .content
  last : ∀ token ∈ (tokenize source).getLast?, token.kind ≠ .text

theorem EndsCleanly.separates {source : Text} (h : EndsCleanly source) : Separates source := by
  have hcomplete : ∀ piece ∈ pieces source, piece.cut = none :=
    cut_of_cutsFrom (List.map_eq_nil_iff.mp h.diagnostics)
  refine ⟨hcomplete, fun s => ?_⟩
  have happend : piecesFrom .content (source ++ s) =
      piecesFrom .content source ++ piecesFrom (modeAtEnd .content source) s := by
    apply piecesFrom_append plain_content hcomplete
    intro piece data hpiece hdata _
    -- the last token would be text
    have hlexemes := congrArg List.getLast? (lexemes_tokenize source)
    rw [List.getLast?_map, List.getLast?_map, pieces, hpiece] at hlexemes
    obtain ⟨token, htoken, hlexeme⟩ := Option.map_eq_some_iff.mp hlexemes
    have hkind : token.kind = .text := by
      simp [Token.kind, hlexeme, hdata]
    exact absurd hkind (h.last token htoken)
  rw [h.content] at happend
  exact happend

theorem Separates.tokenize_append {before : Text} (h : Separates before) (s : Text) :
    tokenize (before ++ s) = tokenize before ++ (tokenize s).map (Token.shift before.length) := by
  have hlength : 0 + ((pieces before).flatMap Piece.source).length = before.length + 0 := by
    rw [pieces, flatMap_source_piecesFrom]
    omega
  rw [tokenize, h.pieces_append, tokensFrom_append, hlength, tokensFrom_add]
  rfl

theorem Separates.diagnostics_append {before : Text} (h : Separates before) (s : Text) :
    diagnostics (before ++ s) = (diagnostics s).map (Diagnostic.shift before.length) := by
  rw [diagnostics, h.cuts_append, diagnostics, List.map_map, List.map_map]
  apply List.map_congr_left
  intro cut _
  simp [diagnostic, Diagnostic.shift]

end Scan

/-- Behind a clean end scanning begins anew. -/
theorem tokenize_append_of_endsCleanly {a : Text} (h : Scan.EndsCleanly a) (b : Text) :
    tokenize (a ++ b) = tokenize a ++ (tokenize b).map (Token.shift a.length) ∧
      Scan.diagnostics (a ++ b) = (Scan.diagnostics b).map (Diagnostic.shift a.length) :=
  ⟨h.separates.tokenize_append b, h.separates.diagnostics_append b⟩

def finishedPart : Text :=
  "<script>a<b</script>\x7b@ x \x7d<!-- y -->".toList

def unfinishedPart : Text :=
  "</script> t<p a='".toList

theorem tokenize_append_of_endsCleanly_finishedPart :
    Scan.EndsCleanly finishedPart ∧
      tokenize (finishedPart ++ unfinishedPart) =
        tokenize finishedPart ++ (tokenize unfinishedPart).map (Token.shift finishedPart.length) ∧
      Scan.diagnostics (finishedPart ++ unfinishedPart) =
        (Scan.diagnostics unfinishedPart).map (Diagnostic.shift finishedPart.length) := by
  have hclean : Scan.EndsCleanly finishedPart := by
    constructor <;> decide +kernel
  exact ⟨hclean, tokenize_append_of_endsCleanly hclean unfinishedPart⟩

end MarkupTemplate
