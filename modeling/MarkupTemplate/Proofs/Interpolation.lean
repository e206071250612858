import MarkupTemplate.Proofs.Rendering
import MarkupTemplate.Proofs.Text

/-!
# Text with interpolations

A text that alternates between literal text and interpolations `{$expression}` is rendered piece by piece.
The literals may hold braces and dollar signs as long as no marker opens in them; where a literal ends, the
brace of the next interpolation follows, so none opens across the joint either. Each expression is compiled
and checked by itself, and the leftmost one that fails decides.
-/

namespace MarkupTemplate

structure NoMarker (s : Text) : Prop where
  noPrint : ¬ ['{', '$'] <:+: s
  noCode : ¬ ['{', '@'] <:+: s

instance (s : Text) : Decidable (NoMarker s) :=
  decidable_of_iff (¬ ['{', '$'] <:+: s ∧ ¬ ['{', '@'] <:+: s)
    ⟨fun h => ⟨h.1, h.2⟩, fun h => ⟨h.noPrint, h.noCode⟩⟩

structure Interpolation where
  literal : Text
  expr : Text

namespace Interpolation

structure Regular (item : Interpolation) : Prop where
  literal : NoMarker item.literal
  nonempty : item.expr ≠ []
  unclosed : '}' ∉ item.expr

instance (item : Interpolation) : Decidable item.Regular :=
  decidable_of_iff (NoMarker item.literal ∧ item.expr ≠ [] ∧ '}' ∉ item.expr)
    ⟨fun h => ⟨h.1, h.2.1, h.2.2⟩, fun h => ⟨h.literal, h.nonempty, h.unclosed⟩⟩

def source (item : Interpolation) : Text :=
  item.literal ++ ['{', '$'] ++ item.expr ++ ['}']

def printed (item : Interpolation) (code : Text) : Text :=
  item.literal ++ "<?= ".toList ++ code ++ " ?>".toList

/-- The expression compiles to `code`, and the check accepts that. -/
structure Prints (item : Interpolation) (code : Text) : Prop where
  compiles : Expression.compile (Text.trim item.expr) = .ok code
  accepted : Code.violation? code = none

inductive Fails (item : Interpolation) : TemplateError → Prop
  | compile {e : TemplateError} (h : Expression.compile (Text.trim item.expr) = .error e) : Fails item e
  | check {code : Text} {violation : Code.Violation}
      (h : Expression.compile (Text.trim item.expr) = .ok code)
      (hcode : Code.violation? code = some violation) : Fails item (.forbidden violation code)

end Interpolation

def interpolatedText (items : List Interpolation) (last : Text) : Text :=
  items.flatMap Interpolation.source ++ last

theorem NoMarker.tail {c : Char} {s : Text} (h : NoMarker (c :: s)) : NoMarker s :=
  ⟨fun hs => h.noPrint (List.infix_cons hs), fun hs => h.noCode (List.infix_cons hs)⟩

theorem NoMarker.read?_append {c : Char} {s rest : Text} (h : NoMarker (c :: s))
    (hrest : ∀ d ∈ rest.head?, d = '{') : Marker.read? (c :: (s ++ rest)) = none := by
  have hopens : ∀ d, (d = '$' ∨ d = '@') → ∀ t, c :: (s ++ rest) ≠ '{' :: d :: t := by
    intro d hd t ht
    rw [List.cons.injEq] at ht
    obtain ⟨rfl, ht⟩ := ht
    cases s with
    -- behind the last character of the literal comes a brace, which goes on with no marker
    | nil =>
      have hhead : d ∈ rest.head? := by
        rw [List.nil_append] at ht
        rw [ht]
        rfl
      rw [hrest d hhead] at hd
      exact absurd hd (by decide)
    | cons e s =>
      rw [List.cons_append, List.cons.injEq] at ht
      obtain ⟨rfl, -⟩ := ht
      rcases hd with rfl | rfl
      · exact h.noPrint ⟨[], s, rfl⟩
      · exact h.noCode ⟨[], s, rfl⟩
  unfold Marker.read?
  split
  · next t ht => exact absurd ht (hopens '@' (.inr rfl) t)
  · next t ht => exact absurd ht (hopens '$' (.inl rfl) t)
  · rfl

theorem renderText_cons_of_none {c : Char} {s : Text} (h : Marker.read? (c :: s) = none) :
    renderText (c :: s) = (renderText s).map (.markup [c] :: ·) := by
  rw [renderText]
  split
  · next hread =>
    rw [h] at hread
    cases hread
  · rfl

theorem renderText_of_read? {s rest : Text} {marker : Marker}
    (h : Marker.read? s = some (marker, rest)) :
    renderText s = marker.page >>= fun page => (renderText rest).map (page ++ ·) := by
  cases s with
  | nil => cases h
  | cons c s =>
    rw [renderText]
    split
    · next hread =>
      rw [h] at hread
      cases hread
      cases marker.page <;> rfl
    · next hread =>
      rw [h] at hread
      cases hread

theorem NoMarker.renderText_append {s rest : Text} (h : NoMarker s)
    (hrest : ∀ d ∈ rest.head?, d = '{') :
    (renderText (s ++ rest)).map Page.text = ((renderText rest).map Page.text).map (s ++ ·) := by
  induction s with
  | nil => cases hr : renderText rest <;> simp [hr, Except.map]
  | cons c s ih =>
    have htext : ((renderText (s ++ rest)).map (Chunk.markup [c] :: ·)).map Page.text =
        ((renderText (s ++ rest)).map Page.text).map (c :: ·) := by
      cases renderText (s ++ rest) <;> rfl
    rw [List.cons_append, renderText_cons_of_none (h.read?_append hrest), htext, ih h.tail]
    cases renderText rest <;> rfl

theorem NoMarker.text_renderText {s : Text} (h : NoMarker s) :
    (renderText s).map Page.text = .ok s := by
  have hnil : renderText [] = .ok [] := by rw [renderText]
  have happend : (renderText (s ++ [])).map Page.text = ((renderText []).map Page.text).map (s ++ ·) :=
    h.renderText_append (by simp)
  rw [List.append_nil, hnil] at happend
  rw [happend]
  simp [Except.map]

namespace Interpolation

variable {item : Interpolation} {rest : Text}

theorem Regular.read?_marker (h : item.Regular) :
    Marker.read? ('{' :: '$' :: (item.expr ++ ['}'] ++ rest)) = some (.print item.expr, rest) := by
  have hcut : Text.cut? ['}'] (item.expr ++ ['}'] ++ rest) = some (item.expr, rest) := by
    apply Text.cut?_append (List.cons_ne_nil _ _)
    intro hbrace
    rw [List.dropLast_singleton, List.append_nil] at hbrace
    exact h.unclosed (hbrace.subset List.mem_cons_self)
  obtain ⟨c, body, hexpr⟩ := List.exists_cons_of_ne_nil h.nonempty
  rw [hexpr] at hcut ⊢
  rw [Marker.read?, hcut]

theorem Regular.renderText_source (h : item.Regular) :
    (renderText (item.source ++ rest)).map Page.text =
      (Marker.print item.expr).page >>= fun page =>
        ((renderText rest).map Page.text).map fun text => item.literal ++ (page.text ++ text) := by
  have hsource : item.source ++ rest =
      item.literal ++ '{' :: '$' :: (item.expr ++ ['}'] ++ rest) := by
    simp [source]
  rw [hsource, h.literal.renderText_append (by simp), renderText_of_read? h.read?_marker]
  cases (Marker.print item.expr).page with
  | error e => rfl
  | ok page => cases renderText rest <;> simp [bind, Except.bind, Except.map]

theorem page_eq_ok_iff {page : Page} :
    (Marker.print item.expr).page = .ok page ↔ ∃ code, item.Prints code ∧ page = [.print code] := by
  constructor
  · intro hpage
    obtain ⟨code, hcompiles, hsafe, hchunks⟩ := Marker.page_print_eq_ok hpage
    exact ⟨code, ⟨hcompiles, Option.isNone_iff_eq_none.1 hsafe⟩, hchunks⟩
  · rintro ⟨code, hprints, rfl⟩
    rw [Marker.page, hprints.compiles]
    simp [Code.checked, hprints.accepted, Except.map]

theorem page_eq_error_iff {e : TemplateError} :
    (Marker.print item.expr).page = .error e ↔ item.Fails e := by
  constructor
  · intro hpage
    rw [Marker.page] at hpage
    cases hcompile : Expression.compile (Text.trim item.expr) with
    | error compileError =>
      rw [hcompile] at hpage
      cases hpage
      exact .compile hcompile
    | ok code =>
      rw [hcompile] at hpage
      have hchecked : Code.checked code = .error e := map_eq_error_iff.1 hpage
      cases hcode : Code.violation? code with
      | none => simp [Code.checked, hcode] at hchecked
      | some violation =>
        rw [Code.checked, hcode] at hchecked
        cases hchecked
        exact .check hcompile hcode
  · intro hfails
    cases hfails with
    | compile h => rw [Marker.page, h]
    | check h hcode =>
      rw [Marker.page, h]
      simp [Code.checked, hcode, Except.map]

end Interpolation

def printedText (items : List Interpolation) (codes : List Text) (last : Text) : Text :=
  (List.zipWith Interpolation.printed items codes).flatten ++ last

theorem printedText_cons (item : Interpolation) (code : Text) (items : List Interpolation) (codes : List Text)
    (last : Text) :
    printedText (item :: items) (code :: codes) last =
      item.literal ++ (Page.text [.print code] ++ printedText items codes last) := by
  have hchunk : item.printed code = item.literal ++ Page.text [.print code] := by
    have htext : Page.text [.print code] = "<?= ".toList ++ code ++ " ?>".toList :=
      List.append_nil _
    rw [htext, Interpolation.printed]
    simp only [List.append_assoc]
  simp only [printedText, List.zipWith_cons_cons, List.flatten_cons, hchunk, List.append_assoc]

theorem interpolatedText_cons (item : Interpolation) (items : List Interpolation) (last : Text) :
    interpolatedText (item :: items) last = item.source ++ interpolatedText items last := by
  simp [interpolatedText]

section Items

variable {items : List Interpolation} {last : Text} (h : ∀ item ∈ items, item.Regular)
  (hlast : NoMarker last)

include h hlast

theorem renderText_interpolatedText_ok_iff {text : Text} :
    (renderText (interpolatedText items last)).map Page.text = .ok text ↔
      ∃ codes, List.Forall₂ Interpolation.Prints items codes ∧ text = printedText items codes last := by
  induction items generalizing text with
  | nil =>
    have hrender : (renderText (interpolatedText [] last)).map Page.text = .ok last :=
      hlast.text_renderText
    rw [hrender]
    simp [printedText, eq_comm]
  | cons item items ih =>
    rw [List.forall_mem_cons] at h
    rw [interpolatedText_cons, h.1.renderText_source, bind_eq_ok_iff]
    constructor
    · rintro ⟨page, hpage, hrest⟩
      obtain ⟨code, hprints, rfl⟩ := Interpolation.page_eq_ok_iff.1 hpage
      obtain ⟨later, hlater, rfl⟩ := map_eq_ok_iff.1 hrest
      obtain ⟨codes, hcodes, rfl⟩ := (ih h.2).1 hlater
      exact ⟨code :: codes, .cons hprints hcodes, (printedText_cons item code items codes last).symm⟩
    · rintro ⟨codes, hcodes, rfl⟩
      cases hcodes with
      | cons hprints hcodes =>
        refine ⟨_, Interpolation.page_eq_ok_iff.2 ⟨_, hprints, rfl⟩, ?_⟩
        rw [(ih h.2).2 ⟨_, hcodes, rfl⟩, printedText_cons]
        rfl

theorem renderText_interpolatedText_error_iff {e : TemplateError} :
    (renderText (interpolatedText items last)).map Page.text = .error e ↔
      ∃ before item after, items = before ++ item :: after ∧ (∀ p ∈ before, ∃ code, p.Prints code) ∧
        item.Fails e := by
  induction items with
  | nil =>
    have hrender : (renderText (interpolatedText [] last)).map Page.text = .ok last :=
      hlast.text_renderText
    rw [hrender]
    simp
  | cons item items ih =>
    rw [List.forall_mem_cons] at h
    rw [interpolatedText_cons, h.1.renderText_source, bind_eq_error_iff]
    constructor
    · rintro (hpage | ⟨page, hpage, hrest⟩)
      · exact ⟨[], item, items, rfl, by simp, Interpolation.page_eq_error_iff.1 hpage⟩
      · obtain ⟨code, hprints, -⟩ := Interpolation.page_eq_ok_iff.1 hpage
        obtain ⟨before, failing, after, rfl, hbefore, hfails⟩ := (ih h.2).1 (map_eq_error_iff.1 hrest)
        refine ⟨item :: before, failing, after, rfl, ?_, hfails⟩
        exact List.forall_mem_cons.2 ⟨⟨code, hprints⟩, hbefore⟩
    · rintro ⟨before, failing, after, hitems, hbefore, hfails⟩
      cases before with
      | nil =>
        cases hitems
        exact .inl (Interpolation.page_eq_error_iff.2 hfails)
      | cons first before =>
        cases hitems
        rw [List.forall_mem_cons] at hbefore
        obtain ⟨⟨code, hprints⟩, hbefore⟩ := hbefore
        refine .inr ⟨_, Interpolation.page_eq_ok_iff.2 ⟨code, hprints, rfl⟩, ?_⟩
        rw [map_eq_error_iff]
        exact (ih h.2).2 ⟨before, failing, after, rfl, hbefore, hfails⟩

end Items

/-- Interpolations are compiled one by one, and the text between them is copied. -/
theorem render_interpolatedText {items : List Interpolation} {last : Text} (h : ∀ item ∈ items, item.Regular)
    (hlast : NoMarker last) :
    (∀ text, (render (.text (interpolatedText items last))).outcome.map Page.text = .ok text ↔
      ∃ codes, List.Forall₂ Interpolation.Prints items codes ∧ text = printedText items codes last) ∧
    ∀ failure, (render (.text (interpolatedText items last))).outcome = .error failure ↔
      ∃ before item after e, items = before ++ item :: after ∧ (∀ p ∈ before, ∃ code, p.Prints code) ∧
        item.Fails e ∧ failure = .template e := by
  rw [render_text]
  constructor
  · intro text
    rw [← renderText_interpolatedText_ok_iff h hlast]
    cases renderText (interpolatedText items last) <;> simp [Rendered.ofExcept, Except.mapError, Except.map]
  · intro failure
    rw [Rendered.outcome_ofExcept_eq_error_iff]
    constructor
    · rintro ⟨e, he, rfl⟩
      obtain ⟨before, item, after, hitems, hbefore, hfails⟩ :=
        (renderText_interpolatedText_error_iff h hlast).1 (map_eq_error_iff.2 he)
      exact ⟨before, item, after, e, hitems, hbefore, hfails, rfl⟩
    · rintro ⟨before, item, after, e, hitems, hbefore, hfails, rfl⟩
      have he :=
        (renderText_interpolatedText_error_iff h hlast).2 ⟨before, item, after, hitems, hbefore, hfails⟩
      exact ⟨e, map_eq_error_iff.1 he, rfl⟩

def strayItems : List Interpolation :=
  [⟨"\x7b".toList, " name ".toList⟩, ⟨"\x7d$ \x7b\x7b".toList, "bio|nl2br".toList⟩]

def strayEnd : Text :=
  "@\x7b $x\x7d \x7b".toList

def strayCodes : List Text :=
  ["htmlspecialchars($name, ENT_QUOTES | ENT_SUBSTITUTE, 'UTF-8')".toList, "nl2br($bio)".toList]

def failingItems : List Interpolation :=
  [⟨" ".toList, "bio|nl2br".toList⟩, ⟨[], "name|shout".toList⟩, ⟨[], "_GET".toList⟩]

theorem render_interpolatedText_stray :
    (∀ item ∈ strayItems ++ failingItems, item.Regular) ∧ NoMarker strayEnd ∧
      (render (.text (interpolatedText strayItems strayEnd))).outcome.map Page.text =
        .ok (printedText strayItems strayCodes strayEnd) ∧
      (render (.text (interpolatedText failingItems strayEnd))).outcome =
        .error (.template (.unknownFilter "shout".toList "name|shout".toList)) := by
  have hall : ∀ item ∈ strayItems ++ failingItems, item.Regular := by decide +kernel
  obtain ⟨hstray, hfailing⟩ := List.forall_mem_append.1 hall
  have hend : NoMarker strayEnd := by decide +kernel
  refine ⟨hall, hend, ?_, ?_⟩
  · apply ((render_interpolatedText hstray hend).1 _).2
    refine ⟨strayCodes, .cons ⟨?_, ?_⟩ (.cons ⟨?_, ?_⟩ .nil), rfl⟩
    all_goals decide +kernel
  · apply ((render_interpolatedText hfailing hend).2 _).2
    refine ⟨[⟨" ".toList, "bio|nl2br".toList⟩], ⟨[], "name|shout".toList⟩,
      [⟨[], "_GET".toList⟩], _, rfl, ?_, .compile ?_, rfl⟩
    · rw [List.forall_mem_singleton]
      refine ⟨"nl2br($bio)".toList, ?_, ?_⟩ <;> decide +kernel
    · decide +kernel

end MarkupTemplate
