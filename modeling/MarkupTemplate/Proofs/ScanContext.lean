import MarkupTemplate.Proofs.Scan
import MarkupTemplate.Proofs.Word

/-!
# Scanning in context

What a step reads does not depend on what follows, as long as it ends in the same way. A tag ends at
its bracket. A run of text ends where something else begins, and it is read again where something else
begins behind it, in raw text too: a closing tag does not come about across the end of the run.
-/

namespace MarkupTemplate.Scan

theorem tagSpan_taken_append {previous : Char} {quote : Option Char} {s : Text}
    (h : (tagSpan previous quote s).closed = true) (t : Text) :
    tagSpan previous quote ((tagSpan previous quote s).taken ++ t) =
      ⟨(tagSpan previous quote s).taken, t, true⟩ := by
  induction s generalizing previous quote with
  | nil => exact absurd h Bool.false_ne_true
  | cons c s ih =>
    cases quote with
    | some q =>
      rw [tagSpan] at h ⊢
      have hs := ih h
      rw [Span.push, List.cons_append, tagSpan, hs]
      rfl
    | none =>
      rw [tagSpan] at h ⊢
      split_ifs at h ⊢ with hq hg
      · have hs := ih h
        rw [Span.push, List.cons_append, tagSpan, if_pos hq, hs]
        rfl
      · rw [List.singleton_append, tagSpan, if_neg hq, if_pos hg]
      · have hs := ih h
        rw [Span.push, List.cons_append, tagSpan, if_neg hq, if_neg hg, hs]
        rfl

theorem getLast?_taken_tagSpan {previous : Char} {quote : Option Char} {s : Text}
    (h : (tagSpan previous quote s).closed = true) :
    (tagSpan previous quote s).taken.getLast? = some '>' := by
  have hpush : ∀ {c : Char} {span : Span}, span.taken.getLast? = some '>' →
      (span.push c).taken.getLast? = some '>' := by
    intro c span hs
    rw [Span.push, List.getLast?_cons, hs]
    rfl
  induction s generalizing previous quote with
  | nil => exact absurd h Bool.false_ne_true
  | cons c s ih =>
    cases quote with
    | some q =>
      rw [tagSpan] at h ⊢
      exact hpush (ih h)
    | none =>
      rw [tagSpan] at h ⊢
      split_ifs at h ⊢ with hq hg
      · exact hpush (ih h)
      · rw [hg]
        rfl
      · exact hpush (ih h)

theorem closesRawText_iff {name s : Text} :
    closesRawText name s = true ↔
      ∃ w rest, s = '<' :: '/' :: (w ++ rest) ∧ Text.Spells name w ∧
        ∀ c ∈ rest.head?, isBlank c = true ∨ c = '/' ∨ c = '>' := by
  unfold closesRawText
  constructor
  · intro h
    split at h
    · next t ht =>
      have hs := Text.isPrefixOf?_eq_some_iff.1 ht
      split at h
      · next w hw =>
        obtain ⟨rfl, hspells⟩ := Text.dropWord?_eq_some_iff.1 hw
        exact ⟨w, [], hs, hspells, fun c hc => by cases hc⟩
      · next w c r hw =>
        obtain ⟨rfl, hspells⟩ := Text.dropWord?_eq_some_iff.1 hw
        refine ⟨w, c :: r, hs, hspells, fun d hd => ?_⟩
        cases hd
        simpa [or_assoc] using h
      · exact absurd h Bool.false_ne_true
    · exact absurd h Bool.false_ne_true
  · rintro ⟨w, rest, rfl, hspells, hrest⟩
    have hmark : List.isPrefixOf? ['<', '/'] ('<' :: '/' :: (w ++ rest)) = some (w ++ rest) :=
      Text.isPrefixOf?_eq_some_iff.2 rfl
    rw [hmark]
    dsimp only
    rw [hspells.dropWord?]
    cases rest with
    | nil => rfl
    | cons c rest => simpa [or_assoc] using hrest c rfl

theorem interrupts_iff {mode : Mode} {s : Text} :
    interrupts mode s = true ↔
      (∃ t, s = '{' :: '@' :: t) ∨
        (s.head? = some '<' ∧ ∀ name, mode = .rawText name → closesRawText name s = true) := by
  unfold interrupts
  split
  · next t => exact iff_of_true rfl (.inl ⟨t, rfl⟩)
  · next t =>
    cases mode with
    | content => exact iff_of_true rfl (.inr ⟨rfl, fun name hn => by cases hn⟩)
    | rawText name =>
      constructor
      · intro h
        refine .inr ⟨rfl, fun n hn => ?_⟩
        cases hn
        exact h
      · rintro (⟨u, hu⟩ | ⟨-, h⟩)
        · cases hu
        · exact h name rfl
  · next hblock htag =>
    refine iff_of_false Bool.false_ne_true ?_
    rintro (⟨t, rfl⟩ | ⟨h, -⟩)
    · exact hblock t rfl
    · obtain ⟨t, rfl⟩ : ∃ t, s = '<' :: t := by
        cases s with
        | nil => cases h
        | cons c s =>
          cases h
          exact ⟨s, rfl⟩
      exact htag t rfl

/-- A mode that scanning can be in: the names of raw elements are plain words. -/
def Mode.Plain (mode : Mode) : Prop :=
  ∀ name, mode = .rawText name → ∀ p ∈ name, isAsciiWordChar p = true

theorem head?_of_interrupts {mode : Mode} {s : Text} (h : interrupts mode s = true) {c : Char}
    (hc : c ∈ s.head?) : c = '{' ∨ c = '<' := by
  rcases interrupts_iff.1 h with ⟨t, rfl⟩ | ⟨hs, -⟩
  · cases hc
    exact .inl rfl
  · rw [hs] at hc
    cases hc
    exact .inr rfl

theorem not_closesRawText_append {mode : Mode} {name u rest t : Text}
    (hname : ∀ p ∈ name, isAsciiWordChar p = true) (hu : u ≠ [])
    (h : closesRawText name (u ++ rest) = false) (ht : t ≠ [] → interrupts mode t = true)
    (hnil : t = [] → rest = []) : closesRawText name (u ++ t) = false := by
  rw [Bool.eq_false_iff]
  intro hc
  obtain ⟨w, r, hs, hw, hr⟩ := closesRawText_iff.1 hc
  have hhead : ∀ c ∈ t.head?, c = '{' ∨ c = '<' := by
    intro c hc
    refine head?_of_interrupts (ht ?_) hc
    rintro rfl
    cases hc
  -- a tag that ends with the run ends with the source, on both sides
  have hend : u = '<' :: '/' :: w → t = r → False := by
    rintro rfl rfl
    cases t with
    | nil =>
      rw [hnil rfl, Bool.eq_false_iff] at h
      exact h (closesRawText_iff.2 ⟨w, [], by simp, hw, hr⟩)
    | cons c t =>
      rcases hhead c rfl with rfl | rfl
      · rcases hr '{' rfl with h | h | h <;> exact absurd h (by decide)
      · rcases hr '<' rfl with h | h | h <;> exact absurd h (by decide)
  have hsplit : u ++ t = ('<' :: '/' :: w) ++ r := hs
  rcases List.append_eq_append_iff.1 hsplit with ⟨v, hv, htv⟩ | ⟨v, hv, hrv⟩
  · cases v with
    | nil => exact hend (by rw [hv, List.append_nil]) htv
    | cons c v =>
      have hc : c ∈ t.head? := by
        rw [htv]
        rfl
      -- the next character would belong to the tag's name or be its slash
      have hmem : c ∈ '/' :: w := by
        obtain ⟨d, u, rfl⟩ := List.exists_cons_of_ne_nil hu
        rw [List.cons_append, List.cons.injEq] at hv
        rw [hv.2]
        exact List.mem_append_right u List.mem_cons_self
      rcases List.mem_cons.1 hmem with rfl | hm
      · rcases hhead '/' hc with h | h <;> exact absurd h (by decide)
      · have hword := hw.isWordChar hname c hm
        rcases hhead c hc with rfl | rfl <;> exact absurd hword (by decide)
  · cases v with
    | nil => exact hend (by rw [hv, List.append_nil]) hrv.symm
    | cons c v =>
      -- the tag is decided within the run
      rw [hrv] at hr
      rw [Bool.eq_false_iff] at h
      exact h (closesRawText_iff.2 ⟨w, c :: v ++ rest, by rw [hv]; simp, hw,
        fun d hd => hr d (by cases hd; rfl)⟩)

theorem not_interrupts_append {mode : Mode} (hm : mode.Plain) {u rest t : Text} (hu : u ≠ [])
    (h : interrupts mode (u ++ rest) = false) (ht : t ≠ [] → interrupts mode t = true)
    (hnil : t = [] → rest = []) : interrupts mode (u ++ t) = false := by
  rw [Bool.eq_false_iff] at h ⊢
  intro hi
  obtain ⟨c, u, rfl⟩ := List.exists_cons_of_ne_nil hu
  rcases interrupts_iff.1 hi with ⟨s, hs⟩ | ⟨hhead, hraw⟩
  · rw [List.cons_append, List.cons.injEq] at hs
    obtain ⟨rfl, hs⟩ := hs
    cases u with
    | nil =>
      have hc : '@' ∈ t.head? := by
        rw [List.nil_append] at hs
        rw [hs]
        rfl
      have hne : t ≠ [] := by
        rintro rfl
        cases hc
      rcases head?_of_interrupts (ht hne) hc with h | h <;> exact absurd h (by decide)
    | cons d u =>
      rw [List.cons_append, List.cons.injEq] at hs
      rw [hs.1] at h
      exact h (interrupts_iff.2 (.inl ⟨u ++ rest, rfl⟩))
  · refine h (interrupts_iff.2 (.inr ⟨hhead, fun name hn => ?_⟩))
    by_contra hc
    rw [Bool.not_eq_true] at hc
    have := not_closesRawText_append (hm name hn) hu hc ht hnil
    rw [hraw name hn] at this
    cases this

theorem interrupts_rest_textRun (mode : Mode) (s : Text) (h : (textRun mode s).2 ≠ []) :
    interrupts mode (textRun mode s).2 = true := by
  induction s with
  | nil => exact absurd rfl h
  | cons c s ih =>
    rw [textRun] at h ⊢
    split_ifs at h ⊢ with hi
    · exact hi
    · exact ih h

theorem not_interrupts_of_textRun {mode : Mode} {s v : Text} (hv : v ≠ [])
    (h : v <:+ (textRun mode s).1) : interrupts mode (v ++ (textRun mode s).2) = false := by
  induction s with
  | nil => exact absurd (List.suffix_nil.1 h) hv
  | cons c s ih =>
    rw [textRun] at h ⊢
    split_ifs at h ⊢ with hi
    · exact absurd (List.suffix_nil.1 h) hv
    · rcases List.suffix_cons_iff.1 h with rfl | h
      · rw [List.cons_append, append_textRun, Bool.eq_false_iff]
        exact hi
      · exact ih h

theorem noBlock_textRun (mode : Mode) (s : Text) : ¬ ['{', '@'] <:+: (textRun mode s).1 := by
  intro h
  obtain ⟨v, ⟨u, rfl⟩, hv⟩ := List.infix_iff_prefix_suffix.1 h
  have hstop := not_interrupts_of_textRun (List.cons_ne_nil _ _) hv
  exact absurd hstop (by simp [interrupts])

theorem lt_not_mem_textRun (s : Text) : '<' ∉ (textRun .content s).1 := by
  intro h
  obtain ⟨u, v, hsplit⟩ := List.append_of_mem h
  have hstop := not_interrupts_of_textRun (List.cons_ne_nil '<' v) ⟨u, hsplit.symm⟩
  exact absurd hstop (by simp [interrupts])

theorem textRun_of_not_interrupts {mode : Mode} {c : Char} {s : Text}
    (h : interrupts mode (c :: s) = false) :
    textRun mode (c :: s) = (c :: (textRun mode s).1, (textRun mode s).2) := by
  simp [textRun, h]

theorem textRun_append {mode : Mode} {u t : Text}
    (h : ∀ v, v ≠ [] → v <:+ u → interrupts mode (v ++ t) = false)
    (ht : t ≠ [] → interrupts mode t = true) : textRun mode (u ++ t) = (u, t) := by
  induction u with
  | nil =>
    cases t with
    | nil => rfl
    | cons c t => rw [List.nil_append, textRun, if_pos (ht (List.cons_ne_nil c t))]
  | cons c u ih =>
    have hc := h (c :: u) (List.cons_ne_nil c u) List.suffix_rfl
    have hu := ih fun v hv hs => h v hv (hs.trans (List.suffix_cons c u))
    rw [List.cons_append, Bool.eq_false_iff] at hc
    rw [List.cons_append, textRun, if_neg hc, hu]

theorem step_text {mode : Mode} (hm : mode.Plain) {c : Char} {s t : Text}
    (hi : interrupts mode (c :: s) = false) (ht : t ≠ [] → interrupts mode t = true)
    (hnil : t = [] → (textRun mode s).2 = []) :
    step mode c ((textRun mode s).1 ++ t) =
      ⟨⟨.text (c :: (textRun mode s).1), c :: (textRun mode s).1, none⟩, t, mode⟩ := by
  have hfirst : interrupts mode (c :: ((textRun mode s).1 ++ t)) = false := by
    rw [← append_textRun mode s, ← List.cons_append] at hi
    exact not_interrupts_append hm (List.cons_ne_nil c _) hi ht hnil
  have hrun : textRun mode ((textRun mode s).1 ++ t) = ((textRun mode s).1, t) :=
    textRun_append
      (fun v hv hs => not_interrupts_append hm hv (not_interrupts_of_textRun hv hs) ht hnil) ht
  have hstep : step mode c ((textRun mode s).1 ++ t) = textStep mode c ((textRun mode s).1 ++ t) :=
    if_neg (Bool.eq_false_iff.1 hfirst)
  rw [hstep, textStep, hrun]

theorem step_eq_tagStep {mode : Mode} {s : Text} (hi : interrupts mode ('<' :: s) = true)
    (hs : ∀ t, s ≠ '!' :: '-' :: '-' :: t) : step mode '<' s = tagStep s := by
  rcases step_cases mode '<' s with ⟨t, hc, -, -⟩ | ⟨t, -, ht, -, -⟩ | ⟨-, -, -, he⟩ | ⟨hn, -⟩
  · exact absurd hc (by decide)
  · exact absurd ht (hs t)
  · exact he
  · rw [hi] at hn
    cases hn

theorem closesRawText_taken {name taken rest : Text} (hname : ∀ p ∈ name, isAsciiWordChar p = true)
    (hlast : taken.getLast? = some '>') (h : closesRawText name ('<' :: (taken ++ rest)) = true)
    (t : Text) : closesRawText name ('<' :: (taken ++ t)) = true := by
  obtain ⟨w, r, hs, hw, hr⟩ := closesRawText_iff.1 h
  have hnot : '>' ∉ '/' :: w := by
    rw [List.mem_cons, not_or]
    refine ⟨by decide, fun hm => ?_⟩
    exact absurd (hw.isWordChar hname '>' hm) (by decide)
  have hmem : '>' ∈ taken := List.mem_of_getLast? hlast
  have hsplit : taken ++ rest = ('/' :: w) ++ r := (List.cons.inj hs).2
  rcases List.append_eq_append_iff.1 hsplit with ⟨v, hv, -⟩ | ⟨v, hv, hrv⟩
  · rw [hv] at hnot
    exact absurd (List.mem_append_left v hmem) hnot
  · cases v with
    | nil =>
      rw [hv, List.append_nil] at hmem
      exact absurd hmem hnot
    | cons c v =>
      refine closesRawText_iff.2 ⟨w, c :: v ++ t, by rw [hv]; simp, hw, fun d hd => hr d ?_⟩
      cases hd
      rw [hrv]
      rfl

theorem step_tag {mode : Mode} (hm : mode.Plain) {s : Text}
    (hi : interrupts mode ('<' :: s) = true) (hs : ∀ t, s ≠ '!' :: '-' :: '-' :: t)
    (hc : (tagStep s).piece.cut = none) (t : Text) :
    interrupts mode ('<' :: ((tagSpan '<' none s).taken ++ t)) = true ∧
      step mode '<' ((tagSpan '<' none s).taken ++ t) =
        ⟨(tagStep s).piece, t, (tagStep s).mode⟩ := by
  have hclosed : (tagSpan '<' none s).closed = true := closed_of_cut_eq_none hc
  have hsplit := taken_append_rest_tagSpan '<' none s
  have hlast := getLast?_taken_tagSpan hclosed
  have hspan := tagSpan_taken_append hclosed t
  generalize htaken : (tagSpan '<' none s).taken = taken at *
  have hinterrupts : interrupts mode ('<' :: (taken ++ t)) = true := by
    refine interrupts_iff.2 (.inr ⟨rfl, fun name hn => ?_⟩)
    rcases interrupts_iff.1 hi with ⟨u, hu⟩ | ⟨-, hraw⟩
    · cases hu
    · have := hraw name hn
      rw [← hsplit] at this
      exact closesRawText_taken (hm name hn) hlast this t
  have hcomment : ∀ u, taken ++ t ≠ '!' :: '-' :: '-' :: u := by
    intro u hu
    rcases taken with _ | ⟨c, _ | ⟨d, _ | ⟨e, taken⟩⟩⟩
    · cases hlast
    · cases hlast
      cases hu
    · cases hlast
      cases hu
    · rw [List.cons_append, List.cons_append, List.cons_append] at hu
      cases hu
      exact hs _ hsplit.symm
  refine ⟨hinterrupts, ?_⟩
  rw [step_eq_tagStep hinterrupts hcomment, tagStep, hspan]
  simp [tagStep, htaken, hclosed, Span.cut]

theorem step_comment {data : Text} (h : ¬ ['-', '-', '>'] <:+: data ++ ['-', '-']) (t : Text) :
    step .content '<' ('!' :: '-' :: '-' :: (data ++ ['-', '-', '>'] ++ t)) =
      ⟨⟨.comment data, "<!--".toList ++ data ++ "-->".toList, none⟩, t, .content⟩ := by
  have hstep : step .content '<' ('!' :: '-' :: '-' :: (data ++ ['-', '-', '>'] ++ t)) =
      commentStep (data ++ ['-', '-', '>'] ++ t) := rfl
  rw [hstep, commentStep, Text.cut?_append (by decide) h]

end MarkupTemplate.Scan
