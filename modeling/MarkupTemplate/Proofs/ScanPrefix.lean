import MarkupTemplate.Proofs.ScanContext

/-!
# Scanning a source with a prefix

A prefix that leaves nothing open is scanned in the same way whatever follows it, as long as a run of text
at its end is not continued, and what follows is scanned in the mode in which the prefix ends.
-/

namespace MarkupTemplate.Scan

def modeAtEnd (mode : Mode) (s : Text) : Mode :=
  match s with
  | [] => mode
  | c :: s =>
    let next := step mode c s
    modeAtEnd next.mode next.rest
termination_by s.length
decreasing_by exact length_rest_step mode c s

theorem modeAtEnd_nil (mode : Mode) : modeAtEnd mode [] = mode := by
  rw [modeAtEnd]

theorem plain_content : Mode.Plain .content :=
  fun _ h => nomatch h

theorem plain_modeAfter (tag : Tag) : (modeAfter tag).Plain := by
  have hascii : ∀ name ∈ rawTextElements, name.all isAsciiWordChar = true := by decide
  intro name hname
  unfold modeAfter at hname
  split_ifs at hname with h
  cases hname
  simp only [Bool.and_eq_true, List.contains_iff_mem] at h
  exact List.all_eq_true.1 (hascii _ h.2)

theorem plain_mode_step {mode : Mode} (hm : mode.Plain) (c : Char) (s : Text) :
    (step mode c s).mode.Plain := by
  rcases step_cases mode c s with ⟨t, -, -, he⟩ | ⟨t, -, -, -, he⟩ | ⟨-, -, -, he⟩ | ⟨-, he⟩
  · rw [he]
    exact hm
  · rw [he, commentStep]
    split <;> exact plain_content
  · rw [he]
    exact plain_modeAfter _
  · rw [he]
    exact hm

theorem blockSpan_append {depth : Nat} {s : Text} (h : (blockSpan depth s).closed = true) (t : Text) :
    blockSpan depth (s ++ t) =
      ⟨(blockSpan depth s).taken, (blockSpan depth s).rest ++ t, true⟩ := by
  fun_induction blockSpan depth s with
  | case1 => cases h
  | case2 depth s ih =>
    rw [List.cons_append, List.cons_append, blockSpan, ih h]
    rfl
  | case3 s _ => simp [blockSpan]
  | case4 s depth _ ih =>
    rw [List.cons_append, blockSpan]
    · simp [ih h, Span.push]
    · simp
  | case5 depth c s hs hc ih =>
    have hs' : ∀ u, c = '{' → s ++ t = '@' :: u → False := by
      intro u hbrace hu
      cases s with
      | nil => cases h
      | cons d s =>
        cases hu
        exact hs s hbrace rfl
    have hstep : blockSpan depth (c :: (s ++ t)) = (blockSpan depth (s ++ t)).push c := by
      rw [blockSpan.eq_def]
      split
      · next he => cases he
      · next he => exact (hs' _ (List.cons.inj he).1 (List.cons.inj he).2).elim
      · next he =>
        cases he
        rw [if_neg hc]
    rw [List.cons_append, hstep, ih h]
    rfl

theorem content_of_interrupts_comment {mode : Mode} {s : Text}
    (h : interrupts mode ('<' :: '!' :: '-' :: '-' :: s) = true) : mode = .content := by
  cases mode with
  | content => rfl
  | rawText name =>
    have hraw : closesRawText name ('<' :: '!' :: '-' :: '-' :: s) = true := h
    obtain ⟨w, rest, hs, -⟩ := closesRawText_iff.1 hraw
    cases hs

theorem interrupts_append {mode : Mode} (hm : mode.Plain) {c : Char} {s : Text}
    (h : interrupts mode (c :: s) = true) (hcut : (step mode c s).piece.cut = none) (t : Text) :
    interrupts mode (c :: s ++ t) = true := by
  rcases step_cases mode c s with
    ⟨u, rfl, rfl, -⟩ | ⟨u, rfl, rfl, hi, -⟩ | ⟨rfl, hs, -, he⟩ | ⟨hn, -⟩
  · rfl
  · rw [content_of_interrupts_comment hi]
    rfl
  · rw [he] at hcut
    have htag := (step_tag hm h hs hcut ((tagSpan '<' none s).rest ++ t)).1
    rw [← List.append_assoc, taken_append_rest_tagSpan] at htag
    exact htag
  · rw [h] at hn
    cases hn

theorem step_append {mode : Mode} (hm : mode.Plain) {c : Char} {s t : Text}
    (hcut : (step mode c s).piece.cut = none)
    (htext : ∀ data, (step mode c s).piece.lexeme = .text data → (step mode c s).rest ++ t ≠ [] →
      interrupts mode ((step mode c s).rest ++ t) = true) :
    step mode c (s ++ t) =
      ⟨(step mode c s).piece, (step mode c s).rest ++ t, (step mode c s).mode⟩ := by
  rcases step_cases mode c s with
    ⟨u, rfl, rfl, he⟩ | ⟨u, rfl, rfl, hi, he⟩ | ⟨rfl, hs, hi, he⟩ | ⟨hn, he⟩
  · rw [he] at hcut ⊢
    have hclosed := closed_of_cut_eq_none hcut
    have hstep : step mode '{' ('@' :: u ++ t) = blockStep mode (u ++ t) := rfl
    rw [hstep, blockStep, blockSpan_append hclosed]
    simp [blockStep, hclosed, Span.cut]
  · obtain rfl := content_of_interrupts_comment hi
    rw [he] at hcut ⊢
    have hstep : step .content '<' ('!' :: '-' :: '-' :: u ++ t) = commentStep (u ++ t) := rfl
    rw [hstep]
    unfold commentStep at hcut ⊢
    cases hc : Text.cut? ['-', '-', '>'] u with
    | none => simp [hc] at hcut
    | some found =>
      obtain ⟨data, rest⟩ := found
      rw [Text.cut?_append_of_some (by decide) hc]
  · rw [he] at hcut ⊢
    have htag := (step_tag hm hi hs hcut ((tagSpan '<' none s).rest ++ t)).2
    rw [← List.append_assoc, taken_append_rest_tagSpan] at htag
    exact htag
  · rw [he] at htext ⊢
    have hstep := step_text hm hn (htext _ rfl) fun hnil => (List.append_eq_nil_iff.1 hnil).1
    change step mode c ((textRun mode s).1 ++ ((textRun mode s).2 ++ t)) = _ at hstep
    rw [← List.append_assoc, append_textRun] at hstep
    exact hstep

theorem step_of_text {mode : Mode} {c : Char} {s data : Text}
    (h : (step mode c s).piece.lexeme = .text data) :
    interrupts mode (c :: s) = false ∧ step mode c s = textStep mode c s := by
  rcases step_cases mode c s with ⟨t, -, -, he⟩ | ⟨t, -, -, -, he⟩ | ⟨-, -, -, he⟩ | hstep
  · rw [he] at h
    cases h
  · rw [he, commentStep] at h
    split at h <;> cases h
  · rw [he] at h
    cases h
  · exact hstep

theorem rest_step_of_text {mode : Mode} {c : Char} {s data : Text}
    (h : (step mode c s).piece.lexeme = .text data) :
    (step mode c s).mode = mode ∧
      ((step mode c s).rest ≠ [] → interrupts mode (step mode c s).rest = true) := by
  rw [(step_of_text h).2]
  exact ⟨rfl, interrupts_rest_textRun mode s⟩

/-- A part of a source that leaves nothing open is scanned as it is alone, and what follows it in the mode
in which it ends. The last run of text in it must end with it. -/
theorem piecesFrom_append {mode : Mode} (hm : mode.Plain) {s t : Text}
    (hcut : ∀ piece ∈ piecesFrom mode s, piece.cut = none)
    (htext : ∀ piece data, (piecesFrom mode s).getLast? = some piece → piece.lexeme = .text data →
      t ≠ [] → interrupts (modeAtEnd mode s) t = true) :
    piecesFrom mode (s ++ t) = piecesFrom mode s ++ piecesFrom (modeAtEnd mode s) t := by
  fun_induction piecesFrom mode s with
  | case1 mode => rw [modeAtEnd_nil, List.nil_append, List.nil_append]
  | case2 mode c s next ih =>
    rw [List.forall_mem_cons] at hcut
    have hend : modeAtEnd mode (c :: s) = modeAtEnd next.mode next.rest := by
      rw [modeAtEnd]
    rw [hend] at htext ⊢
    have hstep : step mode c (s ++ t) = ⟨next.piece, next.rest ++ t, next.mode⟩ := by
      refine step_append hm hcut.1 fun data hdata hne => ?_
      obtain ⟨hmode, hrest⟩ : next.mode = mode ∧
          (next.rest ≠ [] → interrupts mode next.rest = true) := rest_step_of_text hdata
      change interrupts mode (next.rest ++ t) = true
      cases hr : next.rest with
      | nil =>
        -- the run reaches to the end of the part, so it ends because of what follows
        rw [hr, piecesFrom_nil, modeAtEnd_nil, hmode] at htext
        refine htext next.piece data rfl hdata fun ht => hne ?_
        exact List.append_eq_nil_iff.2 ⟨hr, ht⟩
      | cons d r =>
        -- it ends at a construct that the part holds whole
        rw [hr, hmode, piecesFrom_cons, List.forall_mem_cons] at hcut
        rw [hr] at hrest
        exact interrupts_append hm (hrest (List.cons_ne_nil d r)) hcut.2.1 t
    rw [List.cons_append, piecesFrom_cons, hstep, List.cons_append]
    refine congrArg (next.piece :: ·) (ih (plain_mode_step hm c s) hcut.2 ?_)
    intro piece data hlast
    refine htext piece data ?_
    rw [List.getLast?_cons, hlast]
    rfl

structure EndsInContent (s : Text) : Prop where
  complete : ∀ piece ∈ pieces s, piece.cut = none
  content : modeAtEnd .content s = .content

/-- A source that is scanned as it is alone whatever follows it, and what follows as if it stood alone. -/
structure Separates (before : Text) : Prop where
  complete : ∀ piece ∈ pieces before, piece.cut = none
  pieces_append : ∀ s, pieces (before ++ s) = pieces before ++ pieces s

theorem EndsInContent.pieces_append {before s : Text} (h : EndsInContent before)
    (hs : s ≠ [] → interrupts .content s = true) :
    pieces (before ++ s) = pieces before ++ pieces s := by
  have happend := piecesFrom_append (t := s) plain_content h.complete fun _ _ _ _ hne => by
    rw [h.content]
    exact hs hne
  rw [h.content] at happend
  exact happend

def commentPiece (data : Text) : Piece :=
  ⟨.comment data, "<!--".toList ++ data ++ "-->".toList, none⟩

theorem pieces_comment {data : Text} (h : ¬ ['-', '-', '>'] <:+: data ++ ['-', '-']) (s : Text) :
    pieces ((commentPiece data).source ++ s) = commentPiece data :: pieces s := by
  have hpieces := piecesFrom_cons .content '<' ('!' :: '-' :: '-' :: (data ++ ['-', '-', '>'] ++ s))
  rw [step_comment h] at hpieces
  exact hpieces

theorem EndsInContent.comment {before data : Text} (h : EndsInContent before)
    (hdata : ¬ ['-', '-', '>'] <:+: data ++ ['-', '-']) :
    Separates (before ++ (commentPiece data).source) ∧
      pieces (before ++ (commentPiece data).source) = pieces before ++ [commentPiece data] := by
  have hall : ∀ s, pieces (before ++ (commentPiece data).source ++ s) =
      pieces before ++ commentPiece data :: pieces s := by
    intro s
    rw [List.append_assoc, h.pieces_append fun _ => rfl, pieces_comment hdata]
  have halone : pieces (before ++ (commentPiece data).source) = pieces before ++ [commentPiece data] := by
    have hnil := hall []
    have hempty : pieces [] = [] := piecesFrom_nil .content
    rwa [List.append_nil, hempty] at hnil
  refine ⟨⟨fun piece hp => ?_, fun s => ?_⟩, halone⟩
  · rw [halone, List.mem_append, List.mem_singleton] at hp
    rcases hp with hp | rfl
    · exact h.complete piece hp
    · rfl
  · rw [hall, halone, List.append_assoc, List.singleton_append]

theorem cutsFrom_add (offset position : Nat) (ps : List Piece) :
    cutsFrom (offset + position) ps =
      (cutsFrom position ps).map fun cut => (cut.1, offset + cut.2) := by
  induction ps generalizing position with
  | nil => rfl
  | cons piece ps ih =>
    rw [cutsFrom, cutsFrom, Nat.add_assoc, ih]
    cases piece.cut <;> rfl

theorem cutsFrom_append_of_complete {ps : List Piece} (h : ∀ piece ∈ ps, piece.cut = none)
    (position : Nat) (qs : List Piece) :
    cutsFrom position (ps ++ qs) = cutsFrom (position + (ps.flatMap Piece.source).length) qs := by
  induction ps generalizing position with
  | nil => rfl
  | cons piece ps ih =>
    rw [List.forall_mem_cons] at h
    rw [List.cons_append, cutsFrom, h.1]
    dsimp only
    rw [ih h.2, List.flatMap_cons, List.length_append, Nat.add_assoc]

theorem Separates.cuts_append {before : Text} (h : Separates before) (s : Text) :
    cuts (before ++ s) = (cuts s).map fun cut => (cut.1, before.length + cut.2) := by
  rw [cuts, h.pieces_append, cutsFrom_append_of_complete h.complete, pieces,
    flatMap_source_piecesFrom, Nat.zero_add]
  exact cutsFrom_add before.length 0 (pieces s)

end MarkupTemplate.Scan
