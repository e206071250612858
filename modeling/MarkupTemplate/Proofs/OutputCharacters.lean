import MarkupTemplate.Proofs.InjectionPlace
import MarkupTemplate.Proofs.LoadOrder
import MarkupTemplate.Proofs.Observers
import MarkupTemplate.Proofs.TidyPage

/-!
# The characters of a compiled page

Whatever the compiler adds to the text of a template is written with line feeds and with the printable
characters of ASCII. The names of tags and attributes have no others, and values, expressions and
declared assets are parts of the source, escaped or joined by words of the compiler's. So each character
of a page is one of the source or one of these.
-/

namespace MarkupTemplate

/-- Each character of `s` is one of `source` or one that the compiler writes of its own. -/
def Text.DrawnFrom (s source : Text) : Prop :=
  ∀ c ∈ s, c ∈ source ∨ isOwnChar c = true

namespace Text

variable {source s t : Text}

@[simp] theorem drawnFrom_nil : DrawnFrom [] source :=
  fun _ hc => absurd hc List.not_mem_nil

@[simp] theorem drawnFrom_append :
    DrawnFrom (s ++ t) source ↔ DrawnFrom s source ∧ DrawnFrom t source :=
  List.forall_mem_append

@[simp] theorem drawnFrom_cons {c : Char} :
    DrawnFrom (c :: s) source ↔ (c ∈ source ∨ isOwnChar c = true) ∧ DrawnFrom s source :=
  List.forall_mem_cons

theorem drawnFrom_of_own (h : s.all isOwnChar = true) : DrawnFrom s source :=
  fun c hc => .inr (List.all_eq_true.1 h c hc)

theorem drawnFrom_of_infix (h : s <:+: source) : DrawnFrom s source :=
  fun _ hc => .inl (h.subset hc)

theorem inherited_drawnFrom (source : Text) : Inherited (DrawnFrom · source) where
  nil := drawnFrom_nil
  part ht hs := fun c hc => ht c (hs.subset hc)
  joint := by
    intro a s b hs ha hb
    simp only [isJoint, Bool.and_eq_true] at hs
    exact drawnFrom_append.2 ⟨ha, drawnFrom_append.2 ⟨drawnFrom_of_own hs.1.1.1, hb⟩⟩

theorem drawnFrom_escape (h : DrawnFrom s source) : DrawnFrom (escape s) source := by
  rw [escape_eq_encode]
  intro c hc
  obtain ⟨x, hx, hc⟩ := List.mem_flatMap.1 hc
  by_cases hspecial : x ∈ specials
  · have hall : ∀ x ∈ specials, (entity x).all isOwnChar = true := forall_of_all (by decide)
    exact drawnFrom_of_own (hall x hspecial) c hc
  · rw [entity_of_plain hspecial, List.mem_singleton] at hc
    exact hc ▸ h x hx

end Text

theorem isOwnChar_of_isNameChar {c : Char} (h : Tag.isNameChar c = true) : Text.isOwnChar c = true := by
  simp only [Tag.isNameChar, Text.isOwnChar, Bool.or_eq_true, Bool.and_eq_true, decide_eq_true_eq,
    beq_iff_eq] at h ⊢
  have hle : ∀ {a b : Char}, a ≤ b → a.toNat ≤ b.toNat := fun h => h
  have hrange : 32 ≤ c.toNat ∧ c.toNat ≤ 126 := by
    rcases h with ((((⟨hl, hu⟩ | ⟨hl, hu⟩) | ⟨hl, hu⟩) | rfl) | rfl) | rfl
    · exact ⟨le_trans (by decide) (hle hl), le_trans (hle hu) (by decide)⟩
    · exact ⟨le_trans (by decide) (hle hl), le_trans (hle hu) (by decide)⟩
    · exact ⟨le_trans (by decide) (hle hl), le_trans (hle hu) (by decide)⟩
    all_goals decide
  exact .inr hrange

def Node.Label.DrawnFrom (source : Text) : Node.Label → Prop
  | .text data | .comment data | .code data => data.DrawnFrom source
  | .element name attributes => Tag.IsName name ∧ ∀ item ∈ attributes,
      Tag.IsName item.1 ∧ ∀ value, item.2 = .text value → value.DrawnFrom source

section Tag

variable {source name : Text} {attributes : Attributes}

theorem Tag.IsName.drawnFrom (h : Tag.IsName name) : name.DrawnFrom source :=
  fun c hc => .inr (isOwnChar_of_isNameChar (h.all c hc))

theorem drawnFrom_startTag (h : (Node.Label.element name attributes).DrawnFrom source)
    (skip : List Text) : (startTag name attributes skip).DrawnFrom source := by
  have hmarkup : (attributes.markup name skip).DrawnFrom source := by
    intro c hc
    obtain ⟨⟨key, value⟩, hitem, hc⟩ := List.mem_flatMap.1 hc
    obtain ⟨hkey, hvalue⟩ := h.2 _ (List.mem_of_mem_filter hitem)
    have hitem : (Attributes.itemMarkup (key, value)).DrawnFrom source := by
      have hname : key.DrawnFrom source := hkey.drawnFrom
      cases value with
      | flag => simp [Attributes.itemMarkup, hname, Text.isOwnChar]
      | text value =>
        have hescaped := Text.drawnFrom_escape (hvalue value rfl)
        simp [Attributes.itemMarkup, hname, hescaped, Text.isOwnChar]
      | missing => simp [Attributes.itemMarkup, hname, Text.isOwnChar]
    exact hitem c hc
  have hname : name.DrawnFrom source := h.1.drawnFrom
  simp [startTag, hname, hmarkup, Text.isOwnChar]

theorem drawnFrom_endTag (h : Tag.IsName name) : (endTag name).DrawnFrom source := by
  have hname : name.DrawnFrom source := h.drawnFrom
  simp [endTag, hname, Text.isOwnChar]

theorem drawnFrom_lookup (h : (Node.Label.element name attributes).DrawnFrom source) {key value : Text}
    (hfind : attributes.lookup key = some (.text value)) : (Text.trim value).DrawnFrom source :=
  (Text.inherited_drawnFrom source).trim ((h.2 _ (Attributes.mem_of_lookup hfind)).2 value rfl)

theorem drawnFrom_target (h : (Node.Label.element name attributes).DrawnFrom source) {target : Text}
    (htarget : Render.target name attributes = .ok target) : target.DrawnFrom source := by
  unfold Render.target at htarget
  split at htarget
  · next value hvalue =>
    have htrim := drawnFrom_lookup h hvalue
    split at htarget
    · cases htarget
    · cases htarget
      exact htrim
  · cases htarget

theorem drawnFrom_media (h : (Node.Label.element name attributes).DrawnFrom source) {media : Text}
    (hmedia : Render.media attributes = .ok media) : media.DrawnFrom source := by
  have hstandard : Declaration.defaultMedia.DrawnFrom source := Text.drawnFrom_of_own (by decide)
  unfold Render.media at hmedia
  split at hmedia
  · next value hvalue =>
    have htrim := drawnFrom_lookup h hvalue
    split at hmedia
    · cases hmedia
      exact hstandard
    · cases hmedia
      exact htrim
  · cases hmedia
  · cases hmedia
    exact hstandard
  · cases hmedia
    exact hstandard

end Tag

theorem Chunk.drawnFrom_text {source : Text} {chunk : Chunk} (h : chunk.inner.DrawnFrom source) :
    chunk.text.DrawnFrom source := by
  have haround : ∀ {left right : Text}, left.all Text.isOwnChar = true →
      right.all Text.isOwnChar = true → (left ++ chunk.inner ++ right).DrawnFrom source := by
    intro left right hl hr
    simp [h, Text.drawnFrom_of_own hl, Text.drawnFrom_of_own hr]
  cases chunk with
  | markup text => exact h
  | code body => exact haround (by decide) (by decide)
  | print expr => exact haround (by decide) (by decide)
  | openIf condition => exact haround (by decide) (by decide)
  | openLoop loop =>
    change loop.opening.DrawnFrom source
    rw [loop.opening_eq]
    rcases loop.words with ⟨hk, -⟩ | ⟨hk, -⟩ <;> rw [hk] <;> exact haround (by decide) (by decide)
  | closeIf => exact Text.drawnFrom_of_own (by decide)
  | closeLoop loop =>
    change loop.closing.DrawnFrom source
    rcases loop.words with ⟨-, hc⟩ | ⟨-, hc⟩ <;> rw [hc] <;> exact Text.drawnFrom_of_own (by decide)

namespace Page

def DrawnFrom (source : Text) (page : Page) : Prop :=
  (text page).DrawnFrom source

namespace DrawnFrom

variable {source : Text} {a b page : Page}

theorem append (ha : a.DrawnFrom source) (hb : b.DrawnFrom source) : Page.DrawnFrom source (a ++ b) := by
  rw [Page.DrawnFrom, text_append]
  exact Text.drawnFrom_append.2 ⟨ha, hb⟩

theorem singleton {chunk : Chunk} (h : chunk.inner.DrawnFrom source) :
    Page.DrawnFrom source [chunk] := by
  rw [Page.DrawnFrom, text_cons, text_nil, List.append_nil]
  exact Chunk.drawnFrom_text h

theorem marker {m : Marker} (hm : m.source.DrawnFrom source) (h : m.page = .ok page) :
    page.DrawnFrom source := by
  have hinherited := Text.inherited_drawnFrom source
  cases m with
  | code body =>
    have hbody : Text.DrawnFrom body source := hinherited.part hm ⟨['{', '@'], ['}'], rfl⟩
    rcases Marker.hostCode_eq_ok h with ⟨-, rfl⟩ | ⟨-, rfl⟩
    · exact Text.drawnFrom_nil
    · exact .singleton (hinherited.trim hbody)
  | print expr =>
    have hexpr : Text.DrawnFrom expr source := hinherited.part hm ⟨['{', '$'], ['}'], rfl⟩
    obtain ⟨compiled, hcompiled, -, rfl⟩ := Marker.page_print_eq_ok h
    have hcode := Expression.inherited_compile hinherited (hinherited.trim hexpr) hcompiled
    exact .singleton hcode

theorem renders {s : Text} (h : Renders s page) (hs : s.DrawnFrom source) : page.DrawnFrom source := by
  induction h with
  | nil => exact Text.drawnFrom_nil
  | marker hread hfirst _ ih =>
    rw [Marker.source_append_of_read? hread, Text.drawnFrom_append] at hs
    exact (marker hs.1 hfirst).append (ih hs.2)
  | @char c s _ _ _ ih =>
    rw [Text.drawnFrom_cons] at hs
    have hfirst : Page.DrawnFrom source [.markup [c]] :=
      singleton (Text.drawnFrom_cons.2 ⟨hs.1, Text.drawnFrom_nil⟩)
    exact hfirst.append (ih hs.2)

end DrawnFrom

end Page

theorem keeps_drawnFrom (source : Text) :
    Render.Keeps (Node.Label.DrawnFrom source) (Page.DrawnFrom source) where
  nil := Text.drawnFrom_nil
  append := .append
  lineBreak := .singleton (Text.drawnFrom_of_own (by decide))
  text hlabel h := .renders h hlabel
  comment := by
    intro data hlabel
    have hcontent : (Text.partition ['/', '/'] data).1.DrawnFrom source :=
      ((Text.inherited_drawnFrom source).partition hlabel).1
    refine .singleton (Text.drawnFrom_append.2 ⟨Text.drawnFrom_append.2 ⟨?_, hcontent⟩, ?_⟩)
    · exact Text.drawnFrom_of_own (by decide)
    · exact Text.drawnFrom_of_own (by decide)
  code := by
    intro data hlabel _
    have hbody := (Text.inherited_drawnFrom source).part hlabel (Render.isInfix_blockBody data)
    exact .singleton ((Text.inherited_drawnFrom source).trim hbody)
  unload := by
    intro name target attributes hlabel htarget
    have hescaped := Text.drawnFrom_escape (drawnFrom_target hlabel htarget)
    refine .singleton (Text.drawnFrom_append.2 ⟨Text.drawnFrom_append.2 ⟨?_, hescaped⟩, ?_⟩)
    · exact Text.drawnFrom_of_own (by decide)
    · exact Text.drawnFrom_of_own (by decide)
  startTag skip hlabel := .singleton (drawnFrom_startTag hlabel skip)
  endTag hlabel := .singleton (drawnFrom_endTag hlabel.1)
  conditional := by
    intro name condition attributes body hlabel h hbody
    obtain ⟨value, hvalue, rfl, -⟩ := Render.directive_eq_ok h
    have hopen : Page.DrawnFrom source [.openIf (Text.trim value)] :=
      .singleton (drawnFrom_lookup hlabel hvalue)
    have hclose : Page.DrawnFrom source [.closeIf] := .singleton Text.drawnFrom_nil
    exact (hopen.append hbody).append hclose
  looping := by
    intro name attributes loop body hlabel h hbody
    obtain ⟨value, hvalue, hread⟩ := Render.loopDirective_eq_ok h
    have hcontent := Loop.inherited_read (Text.inherited_drawnFrom source)
      (drawnFrom_lookup hlabel hvalue) hread
    have hopen : Page.DrawnFrom source [.openLoop loop] := .singleton hcontent
    have hclose : Page.DrawnFrom source [.closeLoop loop] := .singleton Text.drawnFrom_nil
    have hbreak : Page.DrawnFrom source [Page.lineBreak] :=
      .singleton (Text.drawnFrom_of_own (by decide))
    exact ((hopen.append hbreak).append hbody).append (hbreak.append hclose)

theorem Node.Label.ReadIn.drawnFrom {source : Text} {label : Node.Label} (h : label.ReadIn source) :
    label.DrawnFrom source := by
  cases h with
  | text _ part => exact Text.drawnFrom_of_infix part
  | nameless _ part => exact Text.drawnFrom_of_infix part
  | comment part => exact Text.drawnFrom_of_infix part
  | code part => exact Text.drawnFrom_of_infix part
  | @element raw part named =>
    refine ⟨Tag.isName_read named, fun item hi => ⟨((Tag.attributes_read raw).2 item hi).1, ?_⟩⟩
    intro value hv c hc
    obtain ⟨name, _⟩ := item
    cases hv
    -- a line feed may have moved into the value, but that is one of the compiler's characters
    by_cases hline : c = '\n'
    · exact .inr (hline ▸ by decide)
    · have hmark : '\n' ∉ [c] := by simpa [eq_comm] using hline
      have hraw := Tag.infix_of_mem_attributes hmark hi ((List.singleton_infix_iff c value).2 hc)
      exact .inl ((hraw.trans part).subset (by simp))

namespace Declaration

structure DrawnFrom (source : Text) (d : Declaration) : Prop where
  target : d.target.DrawnFrom source
  media : ∀ s ∈ d.media, Text.DrawnFrom s source

theorem DrawnFrom.html {source : Text} {d : Declaration} (h : d.DrawnFrom source) :
    d.html.DrawnFrom source := by
  have htarget := Text.drawnFrom_escape h.target
  have hmedia : (d.media.getD []).DrawnFrom source := by
    cases hm : d.media with
    | none => exact Text.drawnFrom_nil
    | some s => exact h.media s hm
  have hescaped := Text.drawnFrom_escape hmedia
  unfold Declaration.html
  split <;> simp [htarget, hescaped, Text.isOwnChar]

end Declaration

theorem Node.Label.Declares.drawnFrom {source : Text} {label : Node.Label} {d : Declaration}
    (h : label.Declares d) (hlabel : label.DrawnFrom source) : d.DrawnFrom source := by
  obtain ⟨h⟩ := h
  unfold Render.load at h
  split at h
  · cases h
  · next target htarget =>
    have ht := drawnFrom_target hlabel htarget
    have hstandard : Declaration.defaultMedia.DrawnFrom source := Text.drawnFrom_of_own (by decide)
    split at h
    · cases h
    · unfold Render.declaration at h
      split at h
      · unfold Render.styleSheet at h
        split at h
        · cases h
        · next media hmedia =>
          cases h
          exact ⟨ht, fun s hs => Option.some.inj hs ▸ drawnFrom_media hlabel hmedia⟩
      · unfold Render.script at h
        split at h
        · cases h
        · split_ifs at h
          cases h
          exact ⟨ht, fun s hs => Option.some.inj hs ▸ hstandard⟩
      · cases h

theorem drawnFrom_of_mem_declared {source : Text} :
    ∀ d ∈ (renderAll (documentOf (tokenize source))).declared, d.DrawnFrom source := by
  intro d hd
  have hcollects := Render.collects_renderAll _ (Builder.proper_build false (tokenize source)).roots
  obtain ⟨label, hload, hdeclares⟩ := hcollects.exists_declares hd
  have hlabel : label ∈ Node.labelsAll (documentOf (tokenize source)) := List.mem_of_mem_filter hload
  exact hdeclares.drawnFrom (readIn_of_mem_labelsAll _ hlabel).drawnFrom

namespace Injection

theorem drawnFrom_insert {source s : Text} {lines : List Text} (name : Text)
    (hlines : ∀ line ∈ lines, line.DrawnFrom source) (hs : s.DrawnFrom source) :
    (insert name lines s).text.DrawnFrom source := by
  cases hplace : place? name s with
  | none => rwa [text_insert_of_none hplace]
  | some k =>
    obtain ⟨before, rest, rfl, rfl, -⟩ := exists_of_place? hplace
    rw [Text.drawnFrom_append] at hs
    have htext : (linesText lines).DrawnFrom source := by
      intro c hc
      obtain ⟨line, hline, hc⟩ := List.mem_flatMap.1 hc
      exact Text.drawnFrom_append.2 ⟨hlines line hline, Text.drawnFrom_of_own (by decide)⟩ c hc
    rw [text_insert_of_some hplace]
    simp [hs.1, hs.2, htext]

end Injection

theorem Assets.drawnFrom_inject {source page : Text} {assets : Assets}
    (hassets : ∀ asset ∈ assets, asset.declaration.DrawnFrom source) (hpage : page.DrawnFrom source) :
    (assets.inject page).text.DrawnFrom source := by
  have hlines : ∀ chosen : Assets, chosen ⊆ assets →
      ∀ line ∈ chosen.map (·.declaration.html), line.DrawnFrom source := by
    intro chosen hchosen line hline
    obtain ⟨asset, hasset, rfl⟩ := List.mem_map.1 hline
    exact (hassets asset (hchosen hasset)).html
  have hsorted : ∀ p : Asset → Bool, Assets.sorted (assets.filter p) ⊆ assets :=
    fun p asset hasset => List.mem_of_mem_filter (List.mem_mergeSort.1 hasset)
  refine Injection.drawnFrom_insert _ (hlines _ (hsorted _)) (Injection.drawnFrom_insert _ ?_ hpage)
  exact hlines _ (List.append_subset.2 ⟨hsorted _, hsorted _⟩)

theorem drawnFrom_output {options : Options} {source : Text} {template : Template}
    (h : (compile options source).outcome = .ok template) : template.output.DrawnFrom source := by
  rw [outcome_compile] at h
  split at h
  · cases h
  · next tokens hscan =>
    cases tokens_of_scan hscan
    obtain ⟨output, houtput, rfl⟩ := map_eq_ok_iff.1 h
    change output.DrawnFrom source
    have hrendered : ∀ text, ((Session.start options.injectAssets).render
        (documentOf (tokenize source))).outcome = .ok text → text.DrawnFrom source := by
      intro text htext
      rw [Session.outcome_render] at htext
      obtain ⟨page, hpage, rfl⟩ := map_eq_ok_iff.1 htext
      exact (keeps_drawnFrom source).renderAll _ page
        (fun label hl => (readIn_of_mem_labelsAll label hl).drawnFrom) hpage
    unfold Session.generate Session.complete at houtput
    dsimp only at houtput
    split at houtput
    · next text htext =>
      split_ifs at houtput
      · cases houtput
        refine Assets.drawnFrom_inject (fun asset hasset => ?_) (hrendered text htext)
        rw [← Session.render, Session.assets_render, Session.start, List.nil_append] at hasset
        obtain ⟨⟨d, _⟩, hd, rfl⟩ := List.mem_map.1 hasset
        exact drawnFrom_of_mem_declared d (List.fst_mem_of_mem_zipIdx hd)
      · exact hrendered output houtput
    · exact hrendered output houtput

end MarkupTemplate
