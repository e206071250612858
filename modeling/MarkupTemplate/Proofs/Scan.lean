import Mathlib.Tactic
import MarkupTemplate.Token.Scan

/-!
# What a scanning step can do

A step reads a raw-code block, a comment, a tag or a run of text, and the head of the source decides
which. Facts about whole scans follow from this case distinction and one fact a case. Whatever a step
leaves open reaches to the end of the source, and where a run of text ends something else begins.
-/

namespace MarkupTemplate.Scan

/-- The four kinds of step, each with the condition under which it is taken. -/
theorem step_cases (mode : Mode) (c : Char) (s : Text) :
    (∃ t, c = '{' ∧ s = '@' :: t ∧ step mode c s = blockStep mode t) ∨
    (∃ t, c = '<' ∧ s = '!' :: '-' :: '-' :: t ∧ interrupts mode (c :: s) = true ∧
      step mode c s = commentStep t) ∨
    (c = '<' ∧ (∀ t, s ≠ '!' :: '-' :: '-' :: t) ∧ interrupts mode (c :: s) = true ∧
      step mode c s = tagStep s) ∨
    (interrupts mode (c :: s) = false ∧ step mode c s = textStep mode c s) := by
  cases hi : interrupts mode (c :: s) with
  | false =>
    refine .inr (.inr (.inr ⟨rfl, ?_⟩))
    simp [step, hi]
  | true =>
    rcases cases_of_interrupts hi with ⟨rfl, t, rfl⟩ | rfl
    · refine .inl ⟨t, rfl, rfl, ?_⟩
      simp [step, hi]
    · by_cases hs : ∃ t, s = '!' :: '-' :: '-' :: t
      · obtain ⟨t, rfl⟩ := hs
        refine .inr (.inl ⟨t, rfl, rfl, rfl, ?_⟩)
        simp [step, hi]
      · have hne : ∀ t, s ≠ '!' :: '-' :: '-' :: t := fun t ht => hs ⟨t, ht⟩
        refine .inr (.inr (.inl ⟨rfl, hne, rfl, ?_⟩))
        unfold step
        rw [if_pos hi]
        split
        · next d t hd => exact absurd hd (by decide)
        · exact absurd rfl (hne _)
        · rfl

theorem rest_tagSpan_of_open {previous : Char} {quote : Option Char} {s : Text}
    (h : (tagSpan previous quote s).closed = false) : (tagSpan previous quote s).rest = [] := by
  induction s generalizing previous quote with
  | nil => rfl
  | cons c s ih =>
    unfold tagSpan at h ⊢
    cases quote with
    | some q => exact ih h
    | none =>
      dsimp only at h ⊢
      split_ifs at h ⊢ with hq hg
      · exact ih h
      · exact ih h

theorem rest_blockSpan_of_open {depth : Nat} {s : Text}
    (h : (blockSpan depth s).closed = false) : (blockSpan depth s).rest = [] := by
  fun_induction blockSpan depth s with
  | case1 => rfl
  | case2 depth s ih => exact ih h
  | case3 => simp at h
  | case4 s depth _ ih => exact ih h
  | case5 depth c s _ _ ih => exact ih h

theorem closed_of_cut {span : Span} {construct : Construct} (h : span.cut construct ≠ none) :
    span.closed = false := by
  cases hc : span.closed with
  | false => rfl
  | true => simp [Span.cut, hc] at h

theorem closed_of_cut_eq_none {span : Span} {construct : Construct} (h : span.cut construct = none) :
    span.closed = true := by
  by_contra hopen
  simp [Span.cut, hopen] at h

theorem rest_commentStep_of_cut {s : Text} (h : (commentStep s).piece.cut ≠ none) :
    (commentStep s).rest = [] := by
  unfold commentStep at h ⊢
  cases hc : Text.cut? ['-', '-', '>'] s with
  | some cut => simp [hc] at h
  | none => rfl

theorem rest_step_of_cut {mode : Mode} {c : Char} {s : Text}
    (h : (step mode c s).piece.cut ≠ none) : (step mode c s).rest = [] := by
  rcases step_cases mode c s with ⟨t, -, -, he⟩ | ⟨t, -, -, -, he⟩ | ⟨-, -, -, he⟩ | ⟨-, he⟩
  · rw [he] at h ⊢
    exact rest_blockSpan_of_open (closed_of_cut h)
  · rw [he] at h ⊢
    exact rest_commentStep_of_cut h
  · rw [he] at h ⊢
    exact rest_tagSpan_of_open (closed_of_cut h)
  · rw [he] at h
    exact absurd rfl h

theorem piecesFrom_cons (mode : Mode) (c : Char) (s : Text) :
    piecesFrom mode (c :: s) =
      (step mode c s).piece :: piecesFrom (step mode c s).mode (step mode c s).rest := by
  rw [piecesFrom]

theorem piecesFrom_nil (mode : Mode) : piecesFrom mode [] = [] := by
  rw [piecesFrom]

end MarkupTemplate.Scan
