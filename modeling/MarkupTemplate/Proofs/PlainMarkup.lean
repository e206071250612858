import MarkupTemplate.Proofs.Observers
import MarkupTemplate.Proofs.Reprint

/-!
# Compiling plain markup

In plain markup there is nothing to compile: no code, no markers in the text, no directives, no
blocks and no asset declarations. Its tree is rendered without a failure, and the page is the linear
form of the tree, printed.
-/

namespace MarkupTemplate

/-- Whether `{@ }`, or `{$ }` with something in it, stands in a text. -/
def hasMarker (s : Text) : Bool :=
  s.tails.any fun
    | '{' :: '@' :: rest => rest.contains '}'
    | '{' :: '$' :: c :: rest => c != '}' && rest.contains '}'
    | _ => false

theorem not_hasMarker_tail {c : Char} {s : Text} (h : hasMarker (c :: s) = false) :
    hasMarker s = false := by
  rw [hasMarker, List.tails_cons, List.any_cons, Bool.or_eq_false_iff] at h
  exact h.2

theorem cut?_brace_eq_none {s : Text} (h : s.contains '}' = false) : Text.cut? ['}'] s = none := by
  refine Text.cut?_eq_none_iff.2 fun hin => ?_
  rw [Bool.eq_false_iff, ne_eq, List.contains_iff_mem] at h
  exact h (hin.subset List.mem_cons_self)

theorem read?_of_not_hasMarker {c : Char} {s : Text} (h : hasMarker (c :: s) = false) :
    Marker.read? (c :: s) = none := by
  rw [hasMarker, List.tails_cons, List.any_cons, Bool.or_eq_false_iff] at h
  obtain ⟨h, -⟩ := h
  unfold Marker.read?
  split
  · next rest he =>
    rw [he] at h
    rw [cut?_brace_eq_none h]
    rfl
  · next rest he =>
    rw [he] at h
    cases rest with
    | nil => rfl
    | cons d rest =>
      by_cases hd : d = '}'
      · subst hd
        rfl
      · have hrest : rest.contains '}' = false := by simpa [hd] using h
        have hcons : (d :: rest).contains '}' = false := by
          simpa [Ne.symm hd] using hrest
        rw [cut?_brace_eq_none hcons]
  · rfl

theorem renderText_of_not_hasMarker {s : Text} (h : hasMarker s = false) :
    ∃ page, renderText s = .ok page ∧ Page.text page = s := by
  induction s with
  | nil =>
    refine ⟨[], ?_, rfl⟩
    rw [renderText]
  | cons c s ih =>
    obtain ⟨page, hpage, htext⟩ := ih (not_hasMarker_tail h)
    refine ⟨.markup [c] :: page, ?_, ?_⟩
    · rw [renderText]
      split
      · next hread =>
        rw [read?_of_not_hasMarker h] at hread
        cases hread
      · rw [hpage]
        rfl
    · exact congrArg (c :: ·) htext

namespace Event

def Plain : Event → Prop
  | text data => hasMarker data = false
  | comment data => data ≠ [] ∧ ¬ ['/', '/'] <:+: data
  | code _ => False
  | single name attributes | enter name attributes =>
    Tag.IsName name ∧ isLoad name = false ∧ isUnload name = false ∧
      Render.isFragment name = false ∧ attributes.has Render.condAttribute = false ∧
      attributes.has Render.loopAttribute = false
  | leave _ => True

theorem plain_linear {event : Event} (h : event.Plain) (names : List Text) :
    ∀ e ∈ event.linear names, e.Plain := by
  have hself : ∀ e ∈ [event], e.Plain := by
    intro e he
    rw [List.mem_singleton.1 he]
    exact h
  have hleaves : ∀ closed : List Text, ∀ e ∈ closed.map leave, e.Plain := by
    intro closed e he
    obtain ⟨name, -, rfl⟩ := List.mem_map.1 he
    exact trivial
  cases event with
  | text data => exact hself
  | comment data => exact hself
  | code data => exact hself
  | enter name attributes => exact hself
  | single name attributes =>
    rw [linear]
    split
    · exact hself
    · intro e he
      rcases List.mem_cons.1 he with rfl | he
      · exact h
      · exact hleaves [name] e he
  | leave name =>
    rw [linear]
    split
    · exact hleaves _
    · exact fun e he => absurd he List.not_mem_nil

theorem plain_linearAll {events : List Event} (h : ∀ e ∈ events, e.Plain) (names : List Text) :
    ∀ e ∈ linearAll names events, e.Plain := by
  induction events generalizing names with
  | nil =>
    intro e he
    obtain ⟨name, -, rfl⟩ := List.mem_map.1 he
    exact trivial
  | cons event events ih =>
    intro e he
    rcases List.mem_append.1 he with he | he
    · exact plain_linear (h event List.mem_cons_self) names e he
    · exact ih (fun x hx => h x (List.mem_cons_of_mem event hx)) _ e he

end Event

theorem Page.text_markup_cons (s : Text) (page : Page) :
    Page.text (.markup s :: page) = s ++ Page.text page := rfl

theorem Page.text_markup (s : Text) : Page.text [.markup s] = s :=
  List.append_nil s

theorem Rendered.pure_bind {α β : Type} (a : α) (f : α → Rendered β) :
    (Rendered.pure a).bind f = f a := rfl

namespace Render

theorem text_comment {data : Text} (h : Event.Plain (.comment data)) :
    Page.text (comment data) = Event.markup (.comment data) := by
  obtain ⟨hne, hslash⟩ := h
  have hwhole : (Text.partition ['/', '/'] data).1 = data := by
    rw [Text.partition, Text.cut?_eq_none_iff.2 hslash]
    rfl
  obtain ⟨c, rest, rfl⟩ := List.exists_cons_of_ne_nil hne
  unfold comment
  rw [hwhole]
  exact Page.text_markup _

theorem not_mem_leafNames {name : Text} (h : Tag.IsName name) :
    Node.leafNames.contains name = false := by
  have hall : ∀ leaf ∈ Node.leafNames, '#' ∈ leaf := by decide
  rw [Bool.eq_false_iff, ne_eq, List.contains_iff_mem]
  intro hmem
  exact h.not_mem (c := '#') (by decide) (hall name hmem)

theorem element_plain {name : Text} {attributes : Attributes}
    (h : Event.Plain (.enter name attributes)) (inner : Page) :
    element name attributes inner =
      .pure (if isChildless name then [.markup (startTag name attributes [])]
        else .markup (startTag name attributes []) :: inner ++ [.markup (endTag name)]) := by
  obtain ⟨-, hload, hunload, hblock, hcond, hloop⟩ := h
  have hvoid : isChildless name = isVoid name := by
    rw [isChildless, hload, hunload, Bool.or_false, Bool.or_false]
  have hordinary : ordinary name attributes inner = .ok (plain name attributes [] inner) := by
    rw [ordinary, hloop, hcond]
    rfl
  rw [element, hload, hunload, hblock, hordinary, hvoid]
  rfl

end Render

mutual

theorem render_plain : ∀ node : Node, node.Proper → (∀ e ∈ node.events, e.Plain) →
    ∃ page, render node = .pure page ∧ Page.text page = Event.markupAll node.events
  | .text data, _, h => by
    obtain ⟨page, hpage, htext⟩ := renderText_of_not_hasMarker (h (.text data) List.mem_cons_self)
    refine ⟨page, ?_, htext.trans (Event.markupAll_singleton (.text data)).symm⟩
    rw [render_text, hpage]
    rfl
  | .comment data, _, h => by
    refine ⟨Render.comment data, render_comment data, ?_⟩
    rw [Render.text_comment (h (.comment data) List.mem_cons_self)]
    exact (Event.markupAll_singleton _).symm
  | .code data, _, h => (h (.code data) List.mem_cons_self).elim
  | .element name attributes children, hp, h => by
    rw [Node.events] at h ⊢
    cases hc : isChildless name with
    | true =>
      rw [hc, if_pos rfl] at h
      have hplain := h (.single name attributes) List.mem_cons_self
      refine ⟨[.markup (startTag name attributes [])], ?_, rfl⟩
      rw [render_element, Render.not_mem_leafNames hplain.1, if_neg Bool.false_ne_true, hp.1 hc,
        renderAll_nil, Rendered.pure_bind, Render.element_plain hplain, hc, if_pos rfl]
    | false =>
      rw [hc, if_neg Bool.false_ne_true] at h
      have hplain := h (.enter name attributes) (List.mem_append_left _ List.mem_cons_self)
      obtain ⟨inner, hinner, htext⟩ := renderAll_plain children hp.2 fun e he =>
        h e (List.mem_append_left _ (List.mem_cons_of_mem _ he))
      refine ⟨.markup (startTag name attributes []) :: inner ++ [.markup (endTag name)], ?_, ?_⟩
      · rw [render_element, Render.not_mem_leafNames hplain.1, if_neg Bool.false_ne_true, hinner,
          Rendered.pure_bind, Render.element_plain hplain, hc, if_neg Bool.false_ne_true]
      · rw [if_neg Bool.false_ne_true, Page.text_append, Page.text_markup_cons, Page.text_markup, htext,
          Event.markupAll_append, Event.markupAll_cons, Event.markupAll_singleton]
        rfl

theorem renderAll_plain : ∀ nodes : List Node, Node.ProperAll nodes →
    (∀ e ∈ Node.eventsAll nodes, e.Plain) →
    ∃ page, renderAll nodes = .pure page ∧ Page.text page = Event.markupAll (Node.eventsAll nodes)
  | [], _, _ => ⟨[], renderAll_nil, rfl⟩
  | node :: nodes, hp, h => by
    rw [Node.eventsAll] at h ⊢
    obtain ⟨page, hpage, htext⟩ := render_plain node hp.1 fun e he =>
      h e (List.mem_append_left _ he)
    obtain ⟨rest, hrest, hrestText⟩ := renderAll_plain nodes hp.2 fun e he =>
      h e (List.mem_append_right _ he)
    refine ⟨page ++ rest, ?_, ?_⟩
    · rw [renderAll_cons, hpage, Rendered.pure_bind, hrest, Rendered.pure_bind]
    · rw [Page.text_append, htext, hrestText, Event.markupAll_append]

end

theorem Assets.inject_nil (page : Text) : (Assets.inject [] page).text = page := by
  have hhead : Assets.headLines [] = [] := by
    simp [headLines, stylesheets, scripts, sorted]
  have hbody : Assets.bodyLines [] = [] := by
    simp [bodyLines, scripts, sorted]
  rw [inject, hhead, hbody]
  rfl

theorem compileText_of_renderAll {source : Text} {page : Page} (hcuts : Scan.cuts source = [])
    (hpage : renderAll (documentOf (tokenize source)) = .pure page) (strict injectAssets : Bool) :
    compileText strict injectAssets source = .ok (Page.text page) := by
  have hscan : scan strict source = .ok (tokenize source) := by
    rw [scan_eq, hcuts]
    cases strict <;> rfl
  have hgenerate : ((Session.start injectAssets).generate (documentOf (tokenize source))).outcome =
      .ok (Page.text page) := by
    rw [Session.generate, hpage]
    cases injectAssets with
    | true => exact congrArg Except.ok (Assets.inject_nil _)
    | false => rfl
  rw [compileText, outcome_compile]
  dsimp only
  rw [hscan]
  dsimp only
  rw [hgenerate]
  rfl

end MarkupTemplate
