import MarkupTemplate.Proofs.DigitRuns
import MarkupTemplate.Proofs.Draws
import MarkupTemplate.Sample.Markup

/-!
# The digits in random templates

Every piece of a random template but a nested one is short, and a nested one is either a short text or
stands between angle brackets. So digits in a row at the edges of a piece are few, and twenty pieces do
not make a row that is too long for an integer.
-/

namespace MarkupTemplate

namespace Text

variable {sep : Text} {parts : List Text} {n : Nat}

theorem length_flatten_le (h : ∀ part ∈ parts, part.length ≤ n) :
    parts.flatten.length ≤ parts.length * n := by
  induction parts with
  | nil => simp
  | cons part parts ih =>
    obtain ⟨hpart, hparts⟩ := List.forall_mem_cons.1 h
    have hrest := ih hparts
    rw [List.flatten_cons, List.length_append, List.length_cons, Nat.succ_mul]
    omega

theorem length_intercalate_le (h : ∀ part ∈ parts, part.length ≤ n) :
    (sep.intercalate parts).length ≤ parts.length * (n + sep.length) := by
  induction parts with
  | nil => simp
  | cons part parts ih =>
    obtain ⟨hpart, hparts⟩ := List.forall_mem_cons.1 h
    have hrest := ih hparts
    rw [List.length_cons, Nat.succ_mul]
    cases parts with
    | nil =>
      rw [List.intercalate_singleton]
      omega
    | cons next parts =>
      rw [List.intercalate_cons_cons, List.length_append, List.length_append]
      omega

end Text

namespace Sample

open Draw

theorem ensures_word {low high : Int} (hlow : 0 ≤ low) (h : low ≤ high) :
    (word low high).Ensures fun s => (s.length : Int) ≤ high := by
  have hletters : ∀ s ∈ letters, s.length ≤ 1 := by decide
  refine (ensures_between (Nat.zero_le _)).bind fun i hi => ?_
  refine ((ensures_pick (by decide) hletters).times _).bind fun parts hparts => ensures_pure ?_
  have hlength := Text.length_flatten_le hparts.2
  rw [hparts.1] at hlength
  omega

theorem ensures_special : (pick specials).Ensures fun s => s.length ≤ 1 :=
  ensures_pick (by decide) (by decide)

theorem ensures_attributeValue (name : Text) :
    (attributeValue name).Ensures fun s => s.length ≤ 20 := by
  unfold attributeValue
  split_ifs
  · exact ensures_pick (by decide) (by decide)
  · exact ensures_pick (by decide) (by decide)
  · refine (ensures_word (by decide) (by decide)).bind fun w hw => ?_
    refine ensures_special.bind fun c hc => ensures_pick (by simp) ?_
    simp
    omega

theorem ensures_writtenAttribute : writtenAttribute.Ensures fun s => s.length ≤ 31 := by
  refine (ensures_word (by decide) (by decide)).bind fun w hw => ?_
  refine ensures_special.bind fun c hc => ?_
  have hnames : ∀ s ∈ attributeNames ++ [w, c], s.length ≤ 8 :=
    List.forall_mem_append.2 ⟨by decide, by simp; omega⟩
  refine (ensures_pick (by simp) hnames).bind fun name hname => ?_
  refine (ensures_attributeValue name).bind fun value hvalue => ?_
  refine (ensures_number (by decide)).bind fun i hi => ?_
  have hstyles : ∀ style ∈ quoteStyles, style.1.length ≤ 2 ∧ style.2.length ≤ 1 := by decide
  have hstyle := hstyles _ (List.getElem_mem hi)
  rw [← List.getD_eq_getElem _ ([], []) hi] at hstyle
  generalize quoteStyles.getD i ([], []) = style at hstyle ⊢
  obtain ⟨before, after⟩ := style
  dsimp only at hstyle ⊢
  split_ifs
  · exact ensures_pure (by omega)
  · refine ensures_pure ?_
    simp only [List.length_append]
    omega

theorem ensures_openTag : openTag.Ensures fun s => s.length ≤ 200 := by
  refine (ensures_word (by decide) (by decide)).bind fun w hw => ?_
  have htags : ∀ s ∈ tags ++ [w, []], s.length ≤ 6 :=
    List.forall_mem_append.2 ⟨by decide, by simp; omega⟩
  refine (ensures_pick (by simp) htags).bind fun tag htag => ?_
  refine (ensures_between (by decide)).bind fun count hcount => ?_
  refine (ensures_writtenAttribute.times count).bind fun attributes hattributes => ?_
  have hends : ∀ s ∈ [">", "/>", " >", "", ">>"].map String.toList, s.length ≤ 2 := by decide
  refine (ensures_pick (by decide) hends).bind fun ending hending => ensures_pure ?_
  have hjoined := @Text.length_intercalate_le [' '] attributes 31 hattributes.2
  simp only [List.length_append, List.length_cons, List.length_nil] at hjoined ⊢
  omega

theorem ensures_closeTag : closeTag.Ensures fun s => s.length ≤ 200 := by
  refine (ensures_word (by decide) (by decide)).bind fun w hw => ?_
  have htags : ∀ s ∈ tags ++ [w], s.length ≤ 6 :=
    List.forall_mem_append.2 ⟨by decide, by simp; omega⟩
  refine (ensures_pick (by simp) htags).bind fun tag htag => ensures_pick (by simp) ?_
  simp
  omega

theorem ensures_comment : comment.Ensures fun s => s.length ≤ 200 := by
  refine (ensures_word (by decide) (by decide)).bind fun w hw => ?_
  have hcontents : ∀ s ∈ [w, "// note".toList, "a // b".toList, []], s.length ≤ 30 := by
    simp
    omega
  refine (ensures_pick (by simp) hcontents).bind fun content hcontent => ensures_pick (by simp) ?_
  simp
  omega

theorem ensures_interpolation : interpolation.Ensures fun s => s.length ≤ 200 := by
  refine (ensures_between (by decide)).bind fun count hcount => ?_
  have hfilters : ∀ s ∈ filters, s.length ≤ 16 := by decide
  refine ((ensures_pick (by decide) hfilters).times count).bind fun chain hchain => ?_
  have hnames : ∀ s ∈ variableNames, s.length ≤ 10 := by decide
  refine (ensures_pick (by decide) hnames).bind fun name hname => ensures_pick (by simp) ?_
  have hjoined := @Text.length_intercalate_le ['|'] chain 16 hchain.2
  have hbody : (if (List.intercalate ['|'] chain).isEmpty then name
      else name ++ ['|'] ++ List.intercalate ['|'] chain).length ≤ 100 := by
    simp only [List.length_cons, List.length_nil] at hjoined
    split_ifs
    · omega
    · simp only [List.length_append, List.length_cons, List.length_nil]
      omega
  simp only [List.forall_mem_cons, List.length_append, List.length_cons, List.length_nil,
    List.not_mem_nil, false_implies, implies_true, and_true]
  omega

theorem ensures_rawBlock : rawBlock.Ensures fun s => s.length ≤ 200 := by
  have hcodes : ∀ s ∈ codeFragments, s.length ≤ 30 := by decide
  refine (ensures_pick (by decide) hcodes).bind fun code hcode => ensures_pick (by simp) ?_
  simp
  omega

theorem ensures_text : text.Ensures fun s => s.length ≤ 40 := by
  refine (ensures_word (by decide) (by decide)).bind fun w hw => ?_
  refine ensures_special.bind fun c hc => ?_
  refine (ensures_between (by decide)).bind fun count hcount => ensures_pick (by simp) ?_
  have hrepeated : (List.replicate count c).flatten.length ≤ count * 1 := by
    have hparts : ∀ part ∈ List.replicate count c, part.length ≤ 1 :=
      fun part hpart => List.eq_of_mem_replicate hpart ▸ hc
    simpa using Text.length_flatten_le hparts
  simp only [List.forall_mem_cons, List.length_cons, List.length_nil, List.not_mem_nil]
  refine ⟨by omega, by decide, by decide, by omega, by simp⟩

theorem ensures_nested (levels : Nat) : (nested levels).Ensures (Text.DigitsFit 40) := by
  have htext : text.Ensures (Text.DigitsFit 40) :=
    ensures_text.mono fun s hs => .of_length hs (by decide)
  have hclosing : Text.DigitsFit 2 "</".toList := .of_length (by decide) (by decide)
  induction levels with
  | zero => exact htext
  | succ levels ih =>
    refine (ensures_chance 300).bind fun short _ => ?_
    split_ifs
    · exact htext
    · have htags : ∀ s ∈ tags, s.length ≤ 6 := by decide
      refine (ensures_pick (by decide) htags).bind fun tag htag => ?_
      refine (ensures_between (by decide)).bind fun count hcount => ?_
      refine (ih.times count).bind fun children hchildren => ?_
      refine ensures_writtenAttribute.bind fun written hwritten => ensures_pure ?_
      have hchildren : Text.DigitsFit 120 children.flatten := by
        have hlimit : children.length * 40 ≤ 120 := by omega
        exact (Text.DigitsFit.flatten hchildren.2 (hlimit.trans (by decide))).mono hlimit
      have htag : Text.DigitsFit 6 tag := .of_length htag (by decide)
      have hwritten : Text.DigitsFit 40 (tag ++ [' '] ++ written ++ ['>']) := by
        refine .of_length ?_ (by decide)
        simp only [List.length_append, List.length_cons, List.length_nil]
        omega
      -- the brackets keep the rows inside from going on, so the bound is the same at every level
      have hcontent := ((hwritten.append hchildren (by decide)).append hclosing (by decide)).append
        htag (by decide)
      exact (hcontent.enclosed (by decide) (by decide)).mono (Nat.zero_le _)

theorem ensures_piece : piece.Ensures (Text.DigitsFit 200) := by
  have hshort : ∀ {x : Draw Text}, (x.Ensures fun s => s.length ≤ 200) → x.Ensures (Text.DigitsFit 200) :=
    fun h => h.mono fun s hs => .of_length hs (by decide)
  have hpieces : ∀ x ∈ pieces, x.Ensures (Text.DigitsFit 200) := by
    intro x hx
    obtain ⟨⟨weight, kind⟩, hkind, hx⟩ := List.mem_flatMap.1 hx
    rw [List.eq_of_mem_replicate hx]
    simp only [List.mem_cons, Prod.mk.injEq, List.not_mem_nil, or_false] at hkind
    rcases hkind with ⟨-, rfl⟩ | ⟨-, rfl⟩ | ⟨-, rfl⟩ | ⟨-, rfl⟩ | ⟨-, rfl⟩ | ⟨-, rfl⟩ | ⟨-, rfl⟩
    · exact hshort ensures_openTag
    · exact hshort ensures_closeTag
    · exact hshort ensures_comment
    · exact hshort ensures_interpolation
    · exact hshort ensures_rawBlock
    · exact (ensures_nested 0).mono fun s hs => hs.mono (by decide)
    · exact (ensures_nested 6).mono fun s hs => hs.mono (by decide)
  refine (ensures_number (by decide)).bind fun i hi => ?_
  rw [List.getD_eq_getElem _ _ hi]
  exact hpieces _ (List.getElem_mem hi)

theorem ensures_template : template.Ensures (Text.DigitsFit Text.digitLimit) := by
  refine (ensures_chance 500).bind fun opened _ => ?_
  refine (ensures_between (by decide)).bind fun count hcount => ?_
  refine (ensures_piece.times count).bind fun parts hparts => ?_
  refine (ensures_chance 500).bind fun closed _ => ensures_pure ?_
  have hlimit : parts.length * 200 ≤ 4000 := by omega
  have hopening : Text.DigitsFit 41
      (if opened then "<html><head><title>t</title></head><body>".toList else []) :=
    .of_length (by cases opened <;> decide) (by decide)
  have hclosing : Text.DigitsFit 14 (if closed then "</body></html>".toList else []) :=
    .of_length (by cases closed <;> decide) (by decide)
  have hparts : Text.DigitsFit 4000 parts.flatten :=
    (Text.DigitsFit.flatten hparts.2 (hlimit.trans (by decide))).mono hlimit
  exact ((hopening.append hparts (by decide)).append hclosing (by decide)).mono (by decide)

end Sample

end MarkupTemplate
