import MarkupTemplate.Proofs.DocumentOrder
import MarkupTemplate.Proofs.Outcome

/-!
# What a successful rendering writes

The page of a tree is put together from the pages of its leaves, from tags and line breaks, and from
conditions and loops around other pages. A property of pages that holds of the first and is kept by the
last holds of every page that rendering comes to; the induction over the tree is made here once. Of the
labels of the tree as much may be assumed as the property needs.
-/

namespace MarkupTemplate

inductive Renders : Text → Page → Prop
  | nil : Renders [] []
  | marker {s rest : Text} {m : Marker} {first last : Page} : Marker.read? s = some (m, rest) →
      m.page = .ok first → Renders rest last → Renders s (first ++ last)
  | char {c : Char} {s : Text} {last : Page} : Marker.read? (c :: s) = none → Renders s last →
      Renders (c :: s) (.markup [c] :: last)

theorem renders_of_renderText {s : Text} {page : Page} (h : renderText s = .ok page) :
    Renders s page := by
  induction hn : s.length using Nat.strong_induction_on generalizing s page with
  | _ n ih =>
    subst hn
    cases s with
    | nil =>
      rw [renderText] at h
      cases h
      exact .nil
    | cons c s =>
      rw [renderText] at h
      split at h
      · next m rest hread =>
        split at h
        · next first hfirst =>
          obtain ⟨last, hlast, rfl⟩ := map_eq_ok_iff.1 h
          exact .marker hread hfirst (ih _ (Marker.length_read? hread) hlast rfl)
        · cases h
      · next hread =>
        obtain ⟨last, hlast, rfl⟩ := map_eq_ok_iff.1 h
        exact .char hread (ih s.length (by simp) hlast rfl)

theorem Code.checked_eq_ok_iff {code checked : Text} :
    Code.checked code = .ok checked ↔ Code.isSafe code = true ∧ checked = code := by
  unfold Code.checked Code.isSafe
  cases Code.violation? code <;> simp [eq_comm]

namespace Marker

theorem hostCode_eq_ok {code : Text} {page : Page} (h : hostCode code = .ok page) :
    (Text.trim code = [] ∧ page = []) ∨
      (Code.isSafe (Text.trim code) = true ∧ page = [.code (Text.trim code)]) := by
  unfold hostCode at h
  split at h
  · next hblank =>
    cases h
    exact .inl ⟨hblank, rfl⟩
  · obtain ⟨checked, hchecked, rfl⟩ := map_eq_ok_iff.1 h
    obtain ⟨hsafe, rfl⟩ := Code.checked_eq_ok_iff.1 hchecked
    exact .inr ⟨hsafe, rfl⟩

theorem page_print_eq_ok {expr : Text} {page : Page} (h : (print expr).page = .ok page) :
    ∃ compiled, Expression.compile (Text.trim expr) = .ok compiled ∧
      Code.isSafe compiled = true ∧ page = [.print compiled] := by
  simp only [Marker.page] at h
  split at h
  · next compiled hcompiled =>
    obtain ⟨checked, hchecked, rfl⟩ := map_eq_ok_iff.1 h
    obtain ⟨hsafe, rfl⟩ := Code.checked_eq_ok_iff.1 hchecked
    exact ⟨checked, hcompiled, hsafe, rfl⟩
  · cases h

end Marker

theorem Attributes.mem_of_lookup {attributes : Attributes} {name : Text} {value : AttributeValue}
    (h : attributes.lookup name = some value) : (name, value) ∈ attributes := by
  obtain ⟨before, after, rfl, -⟩ := List.lookup_eq_some_iff.1 h
  simp

namespace Render

theorem directive_eq_ok {name element expr : Text} {attributes : Attributes}
    (h : directive name element attributes = .ok expr) :
    ∃ value, attributes.lookup name = some (.text value) ∧ expr = Text.trim value ∧
      Code.isSafe expr = true := by
  unfold directive at h
  split at h
  · next value hvalue =>
    split at h
    · cases h
    · obtain ⟨hsafe, rfl⟩ := Code.checked_eq_ok_iff.1 h
      exact ⟨value, hvalue, rfl, hsafe⟩
  · cases h

theorem loopDirective_eq_ok {element : Text} {attributes : Attributes} {loop : Loop}
    (h : loopDirective element attributes = .ok loop) :
    ∃ value, attributes.lookup loopAttribute = some (.text value) ∧
      Loop.read (Text.trim value) = .ok loop := by
  obtain ⟨expr, hexpr, hread⟩ := bind_eq_ok_iff.1 h
  obtain ⟨value, hvalue, rfl, -⟩ := directive_eq_ok hexpr
  exact ⟨value, hvalue, hread⟩

/-- A property of pages that whatever is written for an element or a leaf has, and that conditions and
loops keep. The labels of the nodes are as `Q` says. -/
structure Keeps (Q : Node.Label → Prop) (P : Page → Prop) : Prop where
  nil : P []
  append {a b : Page} : P a → P b → P (a ++ b)
  lineBreak : P [Page.lineBreak]
  text {data : Text} {page : Page} : Q (.text data) → Renders data page → P page
  comment {data : Text} : Q (.comment data) →
    P [.markup ("<!--".toList ++ (Text.partition ['/', '/'] data).1 ++ "-->".toList)]
  code {data : Text} : Q (.code data) → Code.isSafe (Text.trim (blockBody data)) = true →
    P [.code (Text.trim (blockBody data))]
  unload {name target : Text} {attributes : Attributes} : Q (.element name attributes) →
    Render.target name attributes = .ok target →
    P [.markup ("<!-- Unload: ".toList ++ Text.escape target ++ " -->".toList)]
  startTag {name : Text} {attributes : Attributes} (skip : List Text) :
    Q (.element name attributes) → P [.markup (startTag name attributes skip)]
  endTag {name : Text} {attributes : Attributes} : Q (.element name attributes) →
    P [.markup (endTag name)]
  conditional {name condition : Text} {attributes : Attributes} {body : Page} :
    Q (.element name attributes) → directive condAttribute name attributes = .ok condition →
    P body → P (Page.conditional condition body)
  looping {name : Text} {attributes : Attributes} {loop : Loop} {body : Page} :
    Q (.element name attributes) → loopDirective name attributes = .ok loop →
    P body → P (Page.looping loop body)

namespace Keeps

variable {Q : Node.Label → Prop} {P : Page → Prop} {name : Text} {attributes : Attributes}
  {inner page : Page}

theorem ofComment (h : Keeps Q P) {data : Text} (hlabel : Q (.comment data)) :
    P (Render.comment data) := by
  unfold Render.comment
  split
  · exact h.nil
  · exact h.comment hlabel

theorem ofCode (h : Keeps Q P) {data : Text} (hlabel : Q (.code data))
    (hpage : Marker.hostCode (blockBody data) = .ok page) : P page := by
  rcases Marker.hostCode_eq_ok hpage with ⟨-, rfl⟩ | ⟨hsafe, rfl⟩
  · exact h.nil
  · exact h.code hlabel hsafe

theorem ofUnload (h : Keeps Q P) (hlabel : Q (.element name attributes))
    (hpage : Render.unload name attributes = .ok page) : P page := by
  obtain ⟨target, htarget, hpage⟩ := bind_eq_ok_iff.1 hpage
  split at hpage
  · cases hpage
    exact h.unload hlabel htarget
  · cases hpage

theorem onLines (h : Keeps Q P) (hinner : P inner) : P (onLines inner) :=
  h.append (h.append h.lineBreak hinner) h.lineBreak

theorem plain (h : Keeps Q P) (hlabel : Q (.element name attributes)) (skip : List Text)
    (hinner : P inner) : P (plain name attributes skip inner) := by
  unfold Render.plain
  split
  · exact h.startTag skip hlabel
  · exact h.append (h.append (h.startTag skip hlabel) hinner) (h.endTag hlabel)

theorem guarded (h : Keeps Q P) (hlabel : Q (.element name attributes)) {layout : Page → Page}
    (hpage : guarded name attributes layout inner = .ok page) (hlayout : P (layout inner))
    (hinner : P inner) : P page := by
  unfold Render.guarded at hpage
  split at hpage
  · obtain ⟨condition, hcondition, rfl⟩ := map_eq_ok_iff.1 hpage
    exact h.conditional hlabel hcondition hlayout
  · cases hpage
    exact hinner

theorem fragment (h : Keeps Q P) (hlabel : Q (.element name attributes)) (hinner : P inner)
    (hpage : fragment name attributes inner = .ok page) : P page := by
  unfold Render.fragment at hpage
  split_ifs at hpage
  · obtain ⟨loop, hloop, hpage⟩ := bind_eq_ok_iff.1 hpage
    obtain ⟨body, hbody, hpage⟩ := bind_eq_ok_iff.1 hpage
    cases hpage
    exact h.onLines (h.looping hlabel hloop (h.guarded hlabel hbody (h.onLines hinner) hinner))
  · obtain ⟨body, hbody, rfl⟩ := map_eq_ok_iff.1 hpage
    exact h.onLines (h.guarded hlabel hbody (h.onLines hinner) hinner)
  · cases hpage
    exact hinner

theorem ordinary (h : Keeps Q P) (hlabel : Q (.element name attributes)) (hinner : P inner)
    (hpage : ordinary name attributes inner = .ok page) : P page := by
  have hplain : ∀ skip, P (Render.plain name attributes skip inner) :=
    fun skip => h.plain hlabel skip hinner
  unfold Render.ordinary at hpage
  split_ifs at hpage
  · obtain ⟨loop, hloop, hpage⟩ := bind_eq_ok_iff.1 hpage
    obtain ⟨body, hbody, hpage⟩ := bind_eq_ok_iff.1 hpage
    cases hpage
    exact h.looping hlabel hloop (h.guarded hlabel hbody (hplain _) (hplain _))
  · obtain ⟨body, hbody, rfl⟩ := map_eq_ok_iff.1 hpage
    exact h.onLines (h.guarded hlabel hbody (hplain _) (hplain _))
  · cases hpage
    exact hplain []

theorem element (h : Keeps Q P) (hlabel : Q (.element name attributes)) (hinner : P inner)
    (hpage : (element name attributes inner).outcome = .ok page) : P page := by
  unfold Render.element at hpage
  split_ifs at hpage
  · split at hpage
    · cases hpage
      exact h.nil
    · cases hpage
  · exact h.ofUnload hlabel (Rendered.outcome_ofExcept_eq_ok_iff.1 hpage)
  · exact h.fragment hlabel hinner (Rendered.outcome_ofExcept_eq_ok_iff.1 hpage)
  · exact h.ordinary hlabel hinner (Rendered.outcome_ofExcept_eq_ok_iff.1 hpage)

mutual

theorem render (h : Keeps Q P) : ∀ (node : Node) (page : Page), (∀ label ∈ node.labels, Q label) →
    (render node).outcome = .ok page → P page
  | .text data, page, hlabels, hpage => by
    rw [render_text, Rendered.outcome_ofExcept_eq_ok_iff] at hpage
    exact h.text (hlabels _ (by simp)) (renders_of_renderText hpage)
  | .comment data, page, hlabels, hpage => by
    rw [render_comment] at hpage
    cases hpage
    exact h.ofComment (hlabels _ (by simp))
  | .code data, page, hlabels, hpage => by
    rw [render_code, Rendered.outcome_ofExcept_eq_ok_iff] at hpage
    exact h.ofCode (hlabels _ (by simp)) hpage
  | .element name attributes children, page, hlabels, hpage => by
    rw [render_element] at hpage
    split at hpage
    · cases hpage
    · obtain ⟨inner, hinner, hpage⟩ := Rendered.outcome_bind_eq_ok_iff.1 hpage
      refine h.element (hlabels _ (by simp)) (renderAll h children inner ?_ hinner) hpage
      exact fun label hl => hlabels label (by simp [hl])

theorem renderAll (h : Keeps Q P) : ∀ (nodes : List Node) (page : Page),
    (∀ label ∈ Node.labelsAll nodes, Q label) → (renderAll nodes).outcome = .ok page → P page
  | [], page, _, hpage => by
    rw [renderAll_nil] at hpage
    cases hpage
    exact h.nil
  | node :: nodes, page, hlabels, hpage => by
    rw [renderAll_cons] at hpage
    obtain ⟨first, hfirst, hpage⟩ := Rendered.outcome_bind_eq_ok_iff.1 hpage
    obtain ⟨last, hlast, hpage⟩ := Rendered.outcome_bind_eq_ok_iff.1 hpage
    cases hpage
    refine h.append (render h node first ?_ hfirst) (renderAll h nodes last ?_ hlast)
    · exact fun label hl => hlabels label (by simp [hl])
    · exact fun label hl => hlabels label (by simp [hl])

end

end Keeps

end Render

end MarkupTemplate
