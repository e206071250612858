import MarkupTemplate.Proofs.CodeContext
import MarkupTemplate.Proofs.Rendering
import MarkupTemplate.Session

/-!
# Blocks of checked code

Code, printed expressions and conditions are checked as the author wrote them, or as they were compiled,
and then written between the delimiters of the host language. The delimiters change nothing about the
verdict, so each such block passes the check as a whole. The header of a loop is not among them: it is
put together from the parts of its expression after the check.
-/

namespace MarkupTemplate

open Code (isSafe Opener Closer)

/-- The code that a block was written around, where that code was checked as it stands. -/
def Chunk.fragment? : Chunk → Option Text
  | .code body => some body
  | .print expr => some expr
  | .openIf condition => some condition
  | .markup _ | .closeIf | .openLoop _ | .closeLoop _ => none

theorem isSafe_between {before after : Text} (hopen : Opener before) (hclose : Closer after)
    (code : Text) : isSafe (before ++ code ++ after) = isSafe code := by
  rw [hclose.isSafe_append, hopen.isSafe_append]

theorem isSafe_code (body : Text) : isSafe ("<?php\n".toList ++ body ++ "\n?>".toList) = isSafe body :=
  isSafe_between ⟨.of_isInert (by decide +kernel), Text.forall_of_all (by decide), by decide⟩
    (Text.forall_of_all (by decide +kernel)) body

theorem isSafe_print (expr : Text) : isSafe ("<?= ".toList ++ expr ++ " ?>".toList) = isSafe expr :=
  isSafe_between ⟨.of_isInert (by decide +kernel), Text.forall_of_all (by decide), by decide⟩
    (Text.forall_of_all (by decide +kernel)) expr

theorem isSafe_openIf (condition : Text) :
    isSafe ("<?php if(".toList ++ condition ++ "): ?>".toList) = isSafe condition :=
  isSafe_between ⟨.of_isInert (by decide +kernel), Text.forall_of_all (by decide), by decide⟩
    (Text.forall_of_all (by decide +kernel)) condition

theorem Chunk.isSafe_text {chunk : Chunk} {fragment : Text} (h : chunk.fragment? = some fragment) :
    isSafe chunk.text = isSafe fragment := by
  cases chunk <;> simp only [fragment?, Option.some.injEq, reduceCtorEq] at h <;> subst h
  · exact isSafe_code _
  · exact isSafe_print _
  · exact isSafe_openIf _

def Page.Checked (page : Page) : Prop :=
  ∀ chunk ∈ page, ∀ fragment, chunk.fragment? = some fragment → isSafe fragment = true

namespace Page.Checked

variable {a b page : Page}

theorem nil : Checked [] :=
  fun _ hc => absurd hc List.not_mem_nil

theorem append (ha : Checked a) (hb : Checked b) : Checked (a ++ b) := by
  intro chunk hc
  rcases List.mem_append.1 hc with hc | hc
  · exact ha chunk hc
  · exact hb chunk hc

theorem singleton {chunk : Chunk}
    (h : ∀ fragment, chunk.fragment? = some fragment → isSafe fragment = true) :
    Checked [chunk] := by
  intro other hc
  rw [List.mem_singleton.1 hc]
  exact h

theorem silent {chunk : Chunk} (h : chunk.fragment? = none) : Checked [chunk] :=
  singleton fun _ hf => nomatch h.symm.trans hf

theorem markup (s : Text) : Checked [.markup s] :=
  silent rfl

theorem code {body : Text} (h : isSafe body = true) : Checked [.code body] :=
  singleton fun _ hf => Option.some.inj hf ▸ h

theorem marker {m : Marker} (h : m.page = .ok page) : Checked page := by
  cases m with
  | code body =>
    rcases Marker.hostCode_eq_ok h with ⟨-, rfl⟩ | ⟨hsafe, rfl⟩
    · exact nil
    · exact code hsafe
  | print expr =>
    obtain ⟨compiled, -, hsafe, rfl⟩ := Marker.page_print_eq_ok h
    exact singleton fun fragment hf => Option.some.inj hf ▸ hsafe

theorem renders {s : Text} (h : Renders s page) : Checked page := by
  induction h with
  | nil => exact nil
  | marker _ hfirst _ ih => exact (marker hfirst).append ih
  | char _ _ ih => exact (markup _).append ih

end Page.Checked

theorem keeps_checked : Render.Keeps (fun _ => True) Page.Checked where
  nil := .nil
  append := .append
  lineBreak := .markup _
  text _ h := .renders h
  comment _ := .markup _
  code _ hsafe := .code hsafe
  unload _ _ := .markup _
  startTag _ _ := .markup _
  endTag _ := .markup _
  conditional := by
    intro name condition attributes body _ h hbody
    obtain ⟨value, -, -, hsafe⟩ := Render.directive_eq_ok h
    have hopen : Page.Checked [.openIf condition] :=
      .singleton fun fragment hf => Option.some.inj hf ▸ hsafe
    have hclose : Page.Checked [.closeIf] := .silent rfl
    exact (hopen.append hbody).append hclose
  looping := by
    intro name attributes loop body _ _ hbody
    have hopen : Page.Checked [.openLoop loop] := .silent rfl
    have hclose : Page.Checked [.closeLoop loop] := .silent rfl
    have hbreak : Page.Checked [Page.lineBreak] := .markup _
    exact ((hopen.append hbreak).append hbody).append (hbreak.append hclose)

section Blocks

def codeBlocks (code : Text) : List Chunk :=
  if Text.trim code = [] then [] else [.code (Text.trim code)]

def Marker.blocks : Marker → List Chunk
  | code body => codeBlocks body
  | print expr => (Expression.compile (Text.trim expr)).toOption.toList.map .print

def textBlocks (s : Text) : List Chunk :=
  match s with
  | [] => []
  | c :: s =>
    match _h : Marker.read? (c :: s) with
    | some (marker, rest) => marker.blocks ++ textBlocks rest
    | none => textBlocks s
termination_by s.length
decreasing_by
  · exact Marker.length_read? _h
  · simp

def conditionBlocks (attributes : Attributes) : List Chunk :=
  match attributes.lookup Render.condAttribute with
  | some (.text value) => [.openIf (Text.trim value)]
  | _ => []

mutual

/-- The blocks that a node asks for, in order. Asset declarations and void elements leave out what stands
inside them. -/
def Node.blocks : Node → List Chunk
  | .text data => textBlocks data
  | .comment _ => []
  | .code data => codeBlocks (Render.blockBody data)
  | .element name attributes children =>
    if isLoad name || isUnload name then []
    else conditionBlocks attributes ++ if isVoid name then [] else blocksAll children

def Node.blocksAll : List Node → List Chunk
  | [] => []
  | node :: nodes => node.blocks ++ blocksAll nodes

end

def Page.blocks (page : Page) : List Chunk :=
  page.filter fun chunk => chunk.fragment?.isSome

theorem Page.blocks_append (a b : Page) : Page.blocks (a ++ b) = Page.blocks a ++ Page.blocks b :=
  List.filter_append a b

theorem Marker.blocks_hostCode {code : Text} {page : Page} (h : hostCode code = .ok page) :
    Page.blocks page = codeBlocks code := by
  unfold hostCode at h
  unfold codeBlocks
  split at h
  · next hblank =>
    cases h
    rw [if_pos hblank]
    rfl
  · next hcode =>
    obtain ⟨checked, hchecked, rfl⟩ := map_eq_ok_iff.1 h
    obtain ⟨-, rfl⟩ := Code.checked_eq_ok_iff.1 hchecked
    rw [if_neg hcode]
    rfl

theorem Marker.blocks_page {m : Marker} {page : Page} (h : m.page = .ok page) :
    Page.blocks page = m.blocks := by
  cases m with
  | code body => exact blocks_hostCode h
  | print expr =>
    obtain ⟨compiled, hcompiled, -, rfl⟩ := page_print_eq_ok h
    rw [Marker.blocks, hcompiled]
    rfl

theorem textBlocks_of_renders {s : Text} {page : Page} (h : Renders s page) :
    Page.blocks page = textBlocks s := by
  induction h with
  | nil => rw [textBlocks]; rfl
  | @marker s rest m first last hread hfirst _ ih =>
    cases s with
    | nil => cases hread
    | cons c s =>
      rw [Page.blocks_append, Marker.blocks_page hfirst, ih, textBlocks]
      split
      · next hread' =>
        cases hread.symm.trans hread'
        rfl
      · next hread' => cases hread.symm.trans hread'
  | @char c s last hread _ ih =>
    rw [textBlocks]
    split
    · next hread' => cases hread.symm.trans hread'
    · exact ih

namespace Render

variable {name : Text} {attributes : Attributes} {inner page : Page}

theorem blocks_plain (skip : List Text) :
    Page.blocks (plain name attributes skip inner) = if isVoid name then [] else Page.blocks inner := by
  unfold plain
  split
  · rfl
  · rw [Page.blocks_append]
    exact List.append_nil _

theorem blocks_onLines (body : Page) : Page.blocks (onLines body) = Page.blocks body := by
  rw [onLines, Page.blocks_append]
  exact List.append_nil _

theorem blocks_looping (loop : Loop) (body : Page) :
    Page.blocks (Page.looping loop body) = Page.blocks body := by
  rw [Page.looping, Page.blocks_append]
  exact List.append_nil _

theorem conditionBlocks_of_not_has (h : ¬ attributes.has condAttribute = true) :
    conditionBlocks attributes = [] := by
  unfold conditionBlocks
  split
  · next value hvalue =>
    refine absurd (List.any_eq_true.2 ⟨_, Attributes.mem_of_lookup hvalue, ?_⟩) h
    exact beq_self_eq_true condAttribute
  · rfl

theorem blocks_guarded {layout : Page → Page} (hlayout : Page.blocks (layout inner) = Page.blocks inner)
    (h : guarded name attributes layout inner = .ok page) :
    Page.blocks page = conditionBlocks attributes ++ Page.blocks inner := by
  unfold guarded at h
  split at h
  · obtain ⟨condition, hcondition, rfl⟩ := map_eq_ok_iff.1 h
    obtain ⟨value, hvalue, rfl, -⟩ := directive_eq_ok hcondition
    rw [conditionBlocks, hvalue, Page.conditional, Page.blocks_append, ← hlayout]
    exact List.append_nil _
  · next hnone =>
    cases h
    rw [conditionBlocks_of_not_has hnone, List.nil_append]

theorem blocks_fragment (h : fragment name attributes inner = .ok page) :
    Page.blocks page = conditionBlocks attributes ++ Page.blocks inner := by
  unfold fragment at h
  split_ifs at h with _ hcond
  · obtain ⟨loop, -, h⟩ := bind_eq_ok_iff.1 h
    obtain ⟨body, hbody, h⟩ := bind_eq_ok_iff.1 h
    cases h
    rw [blocks_onLines, blocks_looping, blocks_guarded (blocks_onLines inner) hbody]
  · obtain ⟨body, hbody, rfl⟩ := map_eq_ok_iff.1 h
    rw [blocks_onLines, blocks_guarded (blocks_onLines inner) hbody]
  · cases h
    rw [conditionBlocks_of_not_has hcond, List.nil_append]

theorem blocks_ordinary (h : ordinary name attributes inner = .ok page) :
    Page.blocks page =
      conditionBlocks attributes ++ if isVoid name then [] else Page.blocks inner := by
  unfold ordinary at h
  split_ifs at h with _ hcond
  · obtain ⟨loop, -, h⟩ := bind_eq_ok_iff.1 h
    obtain ⟨body, hbody, h⟩ := bind_eq_ok_iff.1 h
    cases h
    rw [blocks_looping, blocks_guarded rfl hbody, blocks_plain]
  · obtain ⟨body, hbody, rfl⟩ := map_eq_ok_iff.1 h
    rw [blocks_onLines, blocks_guarded rfl hbody, blocks_plain]
  · cases h
    rw [conditionBlocks_of_not_has hcond, List.nil_append, blocks_plain]

theorem isVoid_of_isFragment (h : isFragment name = true) : isVoid name = false := by
  have hname : Text.lower name = "block".toList := by simpa [isFragment] using h
  rw [isVoid, hname]
  decide +kernel

theorem blocks_element (h : (element name attributes inner).outcome = .ok page) :
    Page.blocks page =
      if isLoad name || isUnload name then []
      else conditionBlocks attributes ++ if isVoid name then [] else Page.blocks inner := by
  unfold element at h
  split_ifs at h with hload hunload hfragment
  · split at h
    · cases h
      simp [hload, Page.blocks]
    · cases h
  · obtain ⟨target, -, h⟩ := bind_eq_ok_iff.1 (Rendered.outcome_ofExcept_eq_ok_iff.1 h)
    split at h <;> cases h
    simp [hunload, Page.blocks, Chunk.fragment?]
  · rw [blocks_fragment (Rendered.outcome_ofExcept_eq_ok_iff.1 h), isVoid_of_isFragment hfragment]
    simp [hload, hunload]
  · rw [blocks_ordinary (Rendered.outcome_ofExcept_eq_ok_iff.1 h)]
    simp [hload, hunload]

mutual

theorem blocks_render : ∀ (node : Node) (page : Page), (render node).outcome = .ok page →
    Page.blocks page = node.blocks
  | .text data, page, h => by
    rw [render_text, Rendered.outcome_ofExcept_eq_ok_iff] at h
    exact textBlocks_of_renders (renders_of_renderText h)
  | .comment data, page, h => by
    rw [render_comment] at h
    cases h
    rw [comment]
    split <;> rfl
  | .code data, page, h => by
    rw [render_code, Rendered.outcome_ofExcept_eq_ok_iff] at h
    exact Marker.blocks_hostCode h
  | .element name attributes children, page, h => by
    rw [render_element] at h
    split at h
    · cases h
    · obtain ⟨inner, hinner, h⟩ := Rendered.outcome_bind_eq_ok_iff.1 h
      rw [blocks_element h, blocks_renderAll children inner hinner, Node.blocks]

theorem blocks_renderAll : ∀ (nodes : List Node) (page : Page), (renderAll nodes).outcome = .ok page →
    Page.blocks page = Node.blocksAll nodes
  | [], page, h => by
    rw [renderAll_nil] at h
    cases h
    rfl
  | node :: nodes, page, h => by
    rw [renderAll_cons] at h
    obtain ⟨first, hfirst, h⟩ := Rendered.outcome_bind_eq_ok_iff.1 h
    obtain ⟨last, hlast, h⟩ := Rendered.outcome_bind_eq_ok_iff.1 h
    cases h
    rw [Page.blocks_append, blocks_render node first hfirst, blocks_renderAll nodes last hlast,
      Node.blocksAll]

end

end Render

end Blocks

/-- The text that a tree is rendered to consists of markup and blocks. The blocks around code, printed
expressions and conditions are those that the tree asks for: code for a raw-code block or a code marker,
a printed expression for an interpolation, a condition for a cond directive. Each of them passes the check
as a whole. The delimiters of these blocks leave every verdict as it is. -/
theorem render_blocks_isSafe {session : Session} {document : Document} {text : Text}
    (h : (session.render document).outcome = .ok text) :
    (∃ page, (renderAll document).outcome = .ok page ∧ Page.text page = text ∧
      Page.blocks page = Node.blocksAll document ∧
      ∀ chunk ∈ page, ∀ fragment, chunk.fragment? = some fragment →
        isSafe fragment = true ∧ isSafe chunk.text = true) ∧
    ∀ code, isSafe ("<?php\n".toList ++ code ++ "\n?>".toList) = isSafe code ∧
      isSafe ("<?= ".toList ++ code ++ " ?>".toList) = isSafe code ∧
      isSafe ("<?php if(".toList ++ code ++ "): ?>".toList) = isSafe code := by
  constructor
  · unfold Session.render Session.receive at h
    dsimp only at h
    split at h
    · next page hpage =>
      cases h
      have hchecked := keeps_checked.renderAll document page (fun _ _ => trivial) hpage
      refine ⟨page, hpage, rfl, Render.blocks_renderAll document page hpage, fun chunk hc fragment hf => ?_⟩
      have hsafe := hchecked chunk hc fragment hf
      exact ⟨hsafe, (Chunk.isSafe_text hf).trans hsafe⟩
    · cases h
  · exact fun code => ⟨isSafe_code code, isSafe_print code, isSafe_openIf code⟩

def guardedCode : Document :=
  [.element "p".toList [("cond".toList, .text "$a".toList)]
    [.text "\x7b$x|upper|noescape\x7d\x7b@ strlen($x); \x7d".toList],
    .code "\x7b@ $n = 'eval'; \x7d".toList]

def guardedCodePage : Page :=
  [Page.lineBreak, .openIf "$a".toList, .markup "<p>".toList, .print "strtoupper($x)".toList,
    .code "strlen($x);".toList, .markup "</p>".toList, .closeIf, Page.lineBreak,
    .code "$n = 'eval';".toList]

theorem render_blocks_isSafe_guardedCode :
    (renderAll guardedCode).outcome = .ok guardedCodePage ∧
      Page.blocks guardedCodePage = Node.blocksAll guardedCode ∧
      ∀ chunk ∈ guardedCodePage, ∀ fragment, chunk.fragment? = some fragment →
        isSafe fragment = true ∧ isSafe chunk.text = true := by
  have hpage : (renderAll guardedCode).outcome = .ok guardedCodePage := by
    decide +kernel
  have hrender : ((Session.start false).render guardedCode).outcome = .ok (Page.text guardedCodePage) := by
    rw [Session.render, Session.receive, hpage]
  obtain ⟨⟨page, hsame, -, hblocks⟩, -⟩ := render_blocks_isSafe hrender
  cases hpage.symm.trans hsame
  exact ⟨hpage, hblocks⟩

end MarkupTemplate
