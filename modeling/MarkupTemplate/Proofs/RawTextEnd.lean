import MarkupTemplate.Proofs.RawTextElements
import MarkupTemplate.Proofs.ScanPrefix
import MarkupTemplate.Proofs.SourceParts

/-!
# Where raw text ends

The scanner and the builder each decide where a script or style element ends. The scanner looks for the
name of the element in any letter case, in which the long s counts as an s and the dotted and the dotless
I as an i. The builder goes by the name that is read in the tag, and these letters belong to no name. So
the two agree as long as no such letter stands in the closing tag: while the scanner reads raw text, the
element is the innermost open one, and no other raw-text element is open. Otherwise the scanner goes back
to ordinary content while the element stays open, and whatever comes next goes into it.
-/

namespace MarkupTemplate

open Scan (Mode rawTextElements closesRawText modeAfter)

namespace Builder

theorem names_add (builder : Builder) (token : Token) :
    (builder.add token).names =
      if token.lexeme.isAssetEnd then builder.names else token.lexeme.event.after builder.names := by
  split_ifs with hasset
  · obtain ⟨lexeme, position⟩ := token
    cases lexeme with
    | tag raw t =>
      simp only [Lexeme.isAssetEnd, Bool.and_eq_true] at hasset
      obtain ⟨hclosing, hname⟩ := hasset
      simp only [add, addTag, hclosing, hname, if_true]
      split_ifs
      · exact names_append builder _
      · rfl
    | _ => cases hasset
  · rw [← names_perform, ← quiet_add builder (Bool.eq_false_iff.2 hasset)]
    rfl

end Builder

theorem openAfter_concat (before : List Token) (token : Token) :
    openAfter (before ++ [token]) =
      if token.lexeme.isAssetEnd then openAfter before
      else token.lexeme.event.after (openAfter before) := by
  rw [openAfter, Builder.addAll, List.foldl_append]
  exact Builder.names_add _ token

/-- The scanner takes the tag `ending` for the end of the innermost open element, which holds raw text,
and the name that is read in it is another one. -/
structure Misread (before : List Token) (ending : Token) : Prop where
  ends : ∃ element tag, (openAfter before).head? = some element ∧ isRawText element = true ∧
    ending.tag? = some tag ∧ closesRawText (Text.lower element) ending.raw = true ∧
    Text.lower tag.name ≠ Text.lower element

def HasMisread (tokens : List Token) : Prop :=
  ∃ before ending between, tokens = before ++ ending :: between ∧ Misread before ending

theorem Misread.hasMisread {before : List Token} {ending : Token} (h : Misread before ending) :
    HasMisread (before ++ [ending]) :=
  ⟨before, ending, [], rfl, h⟩

theorem HasMisread.append {tokens : List Token} (h : HasMisread tokens) (more : List Token) :
    HasMisread (tokens ++ more) := by
  obtain ⟨before, ending, between, rfl, hmisread⟩ := h
  exact ⟨before, ending, between ++ more, by simp, hmisread⟩

namespace Scan

/-- The scanner reads raw text just while a raw-text element is the innermost open one, and no other one
is open. -/
structure Agrees (mode : Mode) (names : List Text) : Prop where
  inSync : InSync mode names
  reads : inRawText names = true → mode ≠ .content
  outer : ∀ name ∈ names.tail, isRawText name = false

theorem agrees_content_iff {names : List Text} :
    Agrees .content names ↔ ∀ name ∈ names, isRawText name = false := by
  rw [forall_not_isRawText_iff]
  constructor
  · intro h
    exact ⟨Bool.eq_false_iff.2 fun hin => h.reads hin rfl, h.outer⟩
  · rintro ⟨hin, houter⟩
    refine ⟨inSync_content names, fun h => ?_, houter⟩
    rw [hin] at h
    cases h

theorem Agrees.enter {names : List Text} (h : Agrees .content names) (name : Text) :
    Agrees (modeIn name) (name :: names) := by
  refine ⟨inSync_modeIn name names, fun hin hmode => ?_, agrees_content_iff.1 h⟩
  have hraw : isRawText name = true := hin
  have hmode' : modeIn name = .rawText (Text.lower name) := if_pos hraw
  rw [hmode'] at hmode
  cases hmode

theorem Agrees.tag {names : List Text} (h : Agrees .content names) (raw : Text) (t : Tag) :
    Agrees (modeAfter t) (if (Lexeme.tag raw t).isAssetEnd then names
      else (Lexeme.tag raw t).event.after names) := by
  have hnames := agrees_content_iff.1 h
  rw [modeAfter_eq, Lexeme.isAssetEnd, Lexeme.event]
  cases hclosing : t.closing with
  | true =>
    simp only [Bool.true_or, Bool.true_and, if_true]
    split_ifs
    · exact h
    · exact h
    · rw [Event.after]
      split
      · next closed rest hc =>
        rw [(closed?_spec hc).1] at hnames
        exact agrees_content_iff.2 fun name hn => hnames name (List.mem_append_right closed hn)
      · exact h
  | false =>
    simp only [Bool.false_or, Bool.false_and, Bool.false_eq_true, if_false]
    by_cases hempty : t.name.isEmpty = true
    · have hmode : modeIn t.name = .content := by
        rw [List.isEmpty_iff.1 hempty]
        rfl
      rw [if_pos hempty, hmode, ite_self]
      exact h
    · rw [if_neg hempty]
      cases hself : t.selfClosing with
      | true => exact h
      | false =>
        rw [if_neg Bool.false_ne_true, Bool.false_or]
        cases hchild : isChildless t.name with
        | true =>
          rw [modeIn_of_isChildless hchild]
          exact h
        | false => exact h.enter t.name

theorem Agrees.close {element name : Text} {outer : List Text} {raw : Text} {t : Tag}
    (h : Agrees (.rawText name) (element :: outer)) (hclosing : t.closing = true)
    (hname : Text.lower t.name = Text.lower element) :
    Agrees (modeAfter t) (if (Lexeme.tag raw t).isAssetEnd then element :: outer
      else (Lexeme.tag raw t).event.after (element :: outer)) := by
  obtain ⟨hmem, _, _, hcons, hlower⟩ := h.inSync name rfl
  cases hcons
  have hall : ∀ s ∈ rawTextElements, s ≠ Text.lower [] ∧ s ≠ "load".toList ∧ s ≠ "unload".toList := by
    decide
  obtain ⟨hempty, hload, hunload⟩ := hall name hmem
  rw [← hlower, ← hname] at hempty hload hunload
  have hnonempty : t.name.isEmpty = false := by
    rw [Bool.eq_false_iff, ne_eq, List.isEmpty_iff]
    intro hnil
    exact hempty (by rw [hnil])
  have hasset : (Lexeme.tag raw t).isAssetEnd = false := by
    rw [Lexeme.isAssetEnd, isLoad, isUnload, beq_eq_false_iff_ne.2 hload, beq_eq_false_iff_ne.2 hunload,
      Bool.or_self, Bool.and_false]
  have hevent : (Lexeme.tag raw t).event = .leave t.name := by
    simp [Lexeme.event, hnonempty, hclosing]
  have hclosed : closed? t.name (element :: outer) = some ([element], outer) := by
    simp [closed?, hname]
  have hmode : modeAfter t = .content := by simp [modeAfter_eq, hclosing]
  rw [hasset, hevent, Event.after, hclosed, hmode]
  exact agrees_content_iff.2 h.outer

theorem closing_read_of_rawText {name s : Text} (hi : interrupts (.rawText name) ('<' :: s) = true) :
    (Tag.read ('<' :: (tagSpan '<' none s).taken)).closing = true := by
  by_contra hc
  cases content_of_opening hi (Bool.eq_false_iff.2 hc)

theorem closesRawText_tagSpan {name s : Text} (hname : ∀ p ∈ name, isAsciiWordChar p = true)
    (h : closesRawText name ('<' :: s) = true) :
    closesRawText name ('<' :: (tagSpan '<' none s).taken) = true := by
  rw [← taken_append_rest_tagSpan '<' none s] at h
  cases hclosed : (tagSpan '<' none s).closed with
  | true =>
    have htaken := closesRawText_taken hname (getLast?_taken_tagSpan hclosed) h []
    rwa [List.append_nil] at htaken
  | false => rwa [rest_tagSpan_of_open hclosed, List.append_nil] at h

/-- Scanner and builder agree after a step if they did before it, unless the end of a raw-text element is
misread in it. -/
theorem Agrees.after_step {mode : Mode} {before : List Token} (h : Agrees mode (openAfter before)) (c : Char)
    (s : Text) (position : Nat) :
    Agrees (step mode c s).mode (openAfter (before ++ [⟨(step mode c s).piece.lexeme, position⟩])) ∨
      Misread before ⟨(step mode c s).piece.lexeme, position⟩ := by
  rw [openAfter_concat]
  rcases step_cases mode c s with ⟨t, -, -, he⟩ | ⟨t, rfl, rfl, hi, he⟩ | ⟨rfl, -, hi, he⟩ | ⟨-, he⟩
  · rw [he]
    exact .inl h
  · cases content_of_interrupts_comment hi
    rw [he, commentStep]
    split <;> exact .inl h
  · rw [he]
    cases mode with
    | content => exact .inl (h.tag _ _)
    | rawText name =>
      obtain ⟨hmem, element, outer, hcons, hlower⟩ := h.inSync name rfl
      have hclosing := closing_read_of_rawText hi
      have hcloses := closesRawText_tagSpan (h.inSync.plain name rfl) hi
      by_cases hname : Text.lower (Tag.read ('<' :: (tagSpan '<' none s).taken)).name = Text.lower element
      · rw [hcons] at h ⊢
        exact .inl (h.close hclosing hname)
      · refine .inr ⟨element, _, by rw [hcons]; rfl, ?_, rfl, by rwa [hlower], hname⟩
        rw [isRawText, hlower]
        exact List.contains_iff_mem.2 hmem
  · rw [he]
    exact .inl h

theorem Agrees.verbatim {mode : Mode} {names : List Text} (h : Agrees mode names)
    (hin : inRawText names = true) (c : Char) (s : Text) :
    ∀ label ∈ (step mode c s).piece.lexeme.label?, label.isVerbatim = true := by
  rcases step_cases mode c s with ⟨t, -, -, he⟩ | ⟨t, rfl, rfl, hi, -⟩ | ⟨rfl, -, hi, he⟩ | ⟨-, he⟩
  · rw [he]
    rintro label hl
    cases hl
    rfl
  · exact absurd (content_of_interrupts_comment hi) (h.reads hin)
  · cases mode with
    | content => exact absurd rfl (h.reads hin)
    | rawText name =>
      have hclosing := closing_read_of_rawText hi
      rw [he]
      intro label hl
      simp only [tagStep, Lexeme.label?, hclosing, if_true] at hl
      split_ifs at hl
      · cases hl
        rfl
      · cases hl
  · rw [he]
    intro label hl
    cases hl
    rfl

theorem hasMisread_of_tokensFrom {mode : Mode} {s : Text} {before between after : List Token}
    {token : Token} {label : Node.Label} {position : Nat}
    (h : Agrees mode (openAfter before) ∨ HasMisread before)
    (hsplit : tokensFrom position (piecesFrom mode s) = between ++ token :: after)
    (hin : inRawText (openAfter (before ++ between)) = true) (hl : label ∈ token.lexeme.label?)
    (hverbatim : label.isVerbatim = false) : HasMisread (before ++ between) := by
  induction hn : s.length using Nat.strong_induction_on
    generalizing mode s before between position with
  | _ n ih =>
    subst hn
    cases s with
    | nil => simp [piecesFrom_nil, tokensFrom] at hsplit
    | cons c s =>
      rw [piecesFrom_cons, tokensFrom] at hsplit
      cases between with
      | nil =>
        rw [List.append_nil] at hin ⊢
        obtain ⟨rfl, -⟩ := List.cons.inj hsplit
        rcases h with h | h
        · rw [h.verbatim hin c s label hl] at hverbatim
          cases hverbatim
        · exact h
      | cons first between =>
        obtain ⟨rfl, hrest⟩ := List.cons.inj hsplit
        rw [List.append_cons] at hin ⊢
        refine ih _ (length_rest_step mode c s) ?_ hrest hin rfl
        rcases h with h | h
        · exact (h.after_step c s position).imp id Misread.hasMisread
        · exact .inr (h.append _)

end Scan

def foldedLetters : List Char :=
  ['ı', 'İ', 'ſ']

theorem Text.Spells.map_toLower {name w : Text} (h : Text.Spells name w) (hname : 'k' ∉ name)
    (hw : ∀ c ∈ w, c ∉ foldedLetters) : w.map Char.toLower = name := by
  induction h with
  | nil => rfl
  | @cons p c name w hc _ ih =>
    rw [List.mem_cons, not_or] at hname
    have hfirst := hw c List.mem_cons_self
    have hrest := ih hname.2 fun d hd => hw d (List.mem_cons_of_mem c hd)
    simp only [foldedLetters, List.mem_cons, List.not_mem_nil, or_false, not_or] at hfirst
    simp only [isFormOf, Bool.or_eq_true, Bool.and_eq_true, beq_iff_eq] at hc
    rw [List.map_cons, hrest]
    rcases hc with ((hc | ⟨-, hc⟩) | ⟨-, hc⟩) | ⟨hc, -⟩
    · rw [hc]
    · rcases hc with rfl | rfl <;> simp at hfirst
    · subst hc
      simp at hfirst
    · exact absurd hc.symm hname.1

theorem Tag.isNameChar_of_toLower {c : Char} (h : 'a' ≤ c.toLower ∧ c.toLower ≤ 'z') :
    Tag.isNameChar c = true := by
  simp only [Tag.isNameChar, Bool.or_eq_true, Bool.and_eq_true, decide_eq_true_eq, beq_iff_eq]
  by_cases hupper : c.val ≥ 'A'.val ∧ c.val ≤ 'Z'.val
  · exact .inl (.inl (.inl (.inl (.inr hupper))))
  · have hself : c.toLower = c := dif_neg hupper
    rw [hself] at h
    exact .inl (.inl (.inl (.inl (.inl h))))

theorem Tag.lower_name_read {name w rest : Text} (hname : name ∈ rawTextElements)
    (hw : w.map Char.toLower = name)
    (hrest : ∀ c ∈ rest.head?, isBlank c = true ∨ c = '/' ∨ c = '>') :
    Text.lower (Tag.read ('<' :: '/' :: (w ++ rest))).name = name := by
  have hletters : ∀ s ∈ rawTextElements, s ≠ [] ∧ s.all (fun p => 'a' ≤ p ∧ p ≤ 'z') = true := by
    decide
  obtain ⟨hne, hall⟩ := hletters name hname
  have hrange : ∀ p ∈ name, 'a' ≤ p ∧ p ≤ 'z' :=
    fun p hp => of_decide_eq_true (List.all_eq_true.1 hall p hp)
  have hisName : Tag.IsName w := by
    refine ⟨fun hnil => hne (by rw [← hw, hnil]; rfl), fun c hc => ?_⟩
    exact Tag.isNameChar_of_toLower (hrange c.toLower (hw ▸ List.mem_map_of_mem hc))
  have hstop : ∀ c ∈ rest.head?, Tag.isNameChar c = false := by
    intro c hc
    rcases hrest c hc with hblank | rfl | rfl
    · exact Tag.not_isNameChar_of_isBlank hblank
    · decide
    · decide
  have hopening : Tag.opening? ('<' :: '/' :: (w ++ rest)) = some (true, w ++ rest) := by
    have hslash : Text.trimStart ('/' :: (w ++ rest)) = '/' :: (w ++ rest) := rfl
    rw [Tag.opening?, hslash]
    exact congrArg (fun s => some (true, s)) (hisName.trimStart_append rest)
  rw [Tag.read_of_opening? hopening hisName hstop]
  have hascii : ∀ c ∈ w, c.toNat < 128 := fun c hc => Scan.toNat_lt_of_isNameChar (hisName.all c hc)
  exact (Text.lower_of_ascii hascii).trans hw

theorem Misread.exists_foldedLetter {source : Text} {before : List Token} {ending : Token}
    (h : Misread before ending) (hending : ending ∈ tokenize source) :
    ∃ c ∈ source, c ∈ foldedLetters := by
  obtain ⟨element, tag, -, hraw, htag, hcloses, hname⟩ := h.ends
  by_contra hnone
  apply hname
  obtain ⟨⟨_, raw, cut⟩, hpiece, hlexeme⟩ := exists_piece_of_mem_tokenize hending
  have hpart := Scan.source_infix_of_mem_pieces hpiece
  have hread := Scan.readFrom_of_mem_piecesFrom _ hpiece
  dsimp only at hpart hread
  obtain ⟨lexeme, position⟩ := ending
  cases hlexeme
  cases hread with
  | text => cases htag
  | comment => cases htag
  | code => cases htag
  | tag s =>
    cases htag
    obtain ⟨w, rest, hs, hspells, hrest⟩ := Scan.closesRawText_iff.1 hcloses
    change '<' :: s = _ at hs
    rw [hs] at hpart ⊢
    have hmem : Text.lower element ∈ rawTextElements := List.contains_iff_mem.1 hraw
    have hk : ∀ name ∈ rawTextElements, 'k' ∉ name := by decide
    have hplain : ∀ c ∈ w, c ∉ foldedLetters := by
      intro c hc hfolded
      exact hnone ⟨c, hpart.subset (by simp [hc]), hfolded⟩
    exact Tag.lower_name_read hmem (hspells.map_toLower (hk _ hmem) hplain) hrest

/-- Script and style elements hold only text and raw code, except where the end of one is misread and a
comment or an element follows before the element is closed. That takes one of three letters in the closing
tag: without them the elements of every source are as they should be. -/
theorem holdsRawText_documentOf_iff (source : Text) :
    (Node.holdsRawTextAll (documentOf (tokenize source)) = true ↔
      ¬ ∃ before ending between token after,
        tokenize source = before ++ ending :: (between ++ token :: after) ∧ Misread before ending ∧
        inRawText (openAfter (before ++ ending :: between)) = true ∧
        ∃ label ∈ token.lexeme.label?, label.isVerbatim = false) ∧
    ((∀ c ∈ source, c ∉ foldedLetters) →
      Node.holdsRawTextAll (documentOf (tokenize source)) = true) := by
  have hstart : Scan.Agrees .content (openAfter []) :=
    Scan.agrees_content_iff.2 fun name hn => absurd hn List.not_mem_nil
  have hholds : (¬ ∃ before ending between token after,
        tokenize source = before ++ ending :: (between ++ token :: after) ∧ Misread before ending ∧
        inRawText (openAfter (before ++ ending :: between)) = true ∧
        ∃ label ∈ token.lexeme.label?, label.isVerbatim = false) →
      Node.holdsRawTextAll (documentOf (tokenize source)) = true := by
    refine fun hnone => holdsRawTextAll_documentOf.2 fun before token after hsplit hin label hl => ?_
    by_contra hverbatim
    rw [Bool.not_eq_true] at hverbatim
    have hmisread : HasMisread ([] ++ before) :=
      Scan.hasMisread_of_tokensFrom (.inl hstart) hsplit hin hl hverbatim
    obtain ⟨first, ending, between, rfl, hends⟩ := hmisread
    exact hnone ⟨first, ending, between, token, after, by rw [hsplit]; simp, hends, hin, label, hl,
      hverbatim⟩
  refine ⟨⟨?_, hholds⟩, fun hplain => hholds ?_⟩
  · rintro h ⟨before, ending, between, token, after, hsplit, -, hin, label, hl, hverbatim⟩
    have hall := holdsRawTextAll_documentOf.1 h (before ++ ending :: between) token after
      (by rw [hsplit]; simp) hin label hl
    rw [hall] at hverbatim
    cases hverbatim
  · rintro ⟨before, ending, between, token, after, hsplit, hends, -⟩
    have hstands : ending ∈ tokenize source := by
      rw [hsplit]
      simp
    obtain ⟨c, hc, hfolded⟩ := hends.exists_foldedLetter hstands
    exact hplain c hc hfolded

theorem not_forall_holdsRawText :
    ¬ ∀ source, Node.holdsRawTextAll (documentOf (tokenize source)) = true := by
  intro h
  have hscript : Node.holdsRawTextAll (documentOf (tokenize "<script></ſcript><b>".toList)) = false := by
    decide +kernel
  rw [h] at hscript
  cases hscript

end MarkupTemplate
