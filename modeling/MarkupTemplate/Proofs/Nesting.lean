import MarkupTemplate.Proofs.Observers
import MarkupTemplate.Proofs.TidyPage

/-!
# Control structures are well nested

Conditions and loops are opened and closed by marks in the text of a page. Rendering writes them in
pairs around whole pages, so they are well nested in the sequence of the chunks. In the text of a tidy
page there are no other marks than those, so the text is well nested too.
-/

namespace MarkupTemplate

inductive Control
  | condition
  | collection
  | counter
deriving DecidableEq

def Control.word : Control → Text
  | condition => "if".toList
  | collection => "foreach".toList
  | counter => "for".toList

@[simp] theorem Control.word_condition : condition.word = ['i', 'f'] := by
  decide

@[simp] theorem Control.word_collection :
    collection.word = ['f', 'o', 'r', 'e', 'a', 'c', 'h'] := by
  decide

@[simp] theorem Control.word_counter : counter.word = ['f', 'o', 'r'] := by
  decide

inductive Mark
  | opening (control : Control)
  | closing (control : Control)
deriving DecidableEq

namespace Mark

def all : List Mark :=
  [.opening .condition, .opening .collection, .opening .counter,
    .closing .condition, .closing .collection, .closing .counter]

def text : Mark → Text
  | opening control => "<?php ".toList ++ control.word ++ ['(']
  | closing control => "<?php end".toList ++ control.word ++ "; ?>".toList

@[simp] theorem text_opening (control : Control) :
    text (opening control) = '<' :: '?' :: 'p' :: 'h' :: 'p' :: ' ' :: (control.word ++ ['(']) :=
  rfl

@[simp] theorem text_closing (control : Control) :
    text (closing control) = '<' :: '?' :: 'p' :: 'h' :: 'p' :: ' ' :: 'e' :: 'n' :: 'd' ::
      (control.word ++ [';', ' ', '?', '>']) :=
  rfl

def atHead (s : Text) : List Mark :=
  all.filter fun mark => mark.text.isPrefixOf s

def marksIn : Text → List Mark
  | [] => []
  | c :: s => atHead (c :: s) ++ marksIn s

/-- Whether the structures `outer`, innermost first, and all that are opened by `marks` are closed by
`marks`, each by its own mark and the innermost first. -/
def closes : List Control → List Mark → Bool
  | outer, [] => outer.isEmpty
  | outer, opening control :: marks => closes (control :: outer) marks
  | [], closing _ :: _ => false
  | inner :: outer, closing control :: marks => inner == control && closes outer marks

def WellNested (marks : List Mark) : Prop :=
  closes [] marks = true

instance (marks : List Mark) : Decidable (WellNested marks) :=
  inferInstanceAs (Decidable (_ = true))

def Neutral (marks : List Mark) : Prop :=
  ∀ outer rest, closes outer (marks ++ rest) = closes outer rest

theorem Neutral.nil : Neutral [] :=
  fun _ _ => rfl

theorem Neutral.append {a b : List Mark} (ha : Neutral a) (hb : Neutral b) : Neutral (a ++ b) := by
  intro outer rest
  rw [List.append_assoc, ha, hb]

theorem Neutral.enclose {marks : List Mark} (h : Neutral marks) (control : Control) :
    Neutral (opening control :: marks ++ [closing control]) := by
  intro outer rest
  simp [closes, h (control :: outer)]

theorem Neutral.wellNested {marks : List Mark} (h : Neutral marks) : WellNested marks := by
  have hall := h [] []
  rwa [List.append_nil] at hall

theorem text_eq (mark : Mark) : ∃ r, mark.text = '<' :: '?' :: r := by
  cases mark <;> simp

theorem atHead_eq_nil {c : Char} {s : Text} (h : ¬ (c = '<' ∧ s.head? = some '?')) :
    atHead (c :: s) = [] := by
  apply List.filter_eq_nil_iff.2
  intro mark _ hp
  obtain ⟨r, hr⟩ := mark.text_eq
  rw [hr, List.isPrefixOf_iff_prefix, List.cons_prefix_cons] at hp
  refine h ⟨hp.1.symm, ?_⟩
  obtain ⟨t, rfl⟩ := hp.2
  rfl

theorem marksIn_append {s t : Text} (hs : s.Clear)
    (hjoint : ¬ (s.getLast? = some '<' ∧ t.head? = some '?')) : marksIn (s ++ t) = marksIn t := by
  induction s with
  | nil => rfl
  | cons c s ih =>
    rw [Text.clear_cons_iff] at hs
    have hrest : marksIn (s ++ t) = marksIn t := by
      apply ih hs.2
      rintro ⟨hlast, hhead⟩
      exact hjoint ⟨by simp [List.getLast?_cons, hlast], hhead⟩
    have hhead : ¬ (c = '<' ∧ (s ++ t).head? = some '?') := by
      cases s with
      | nil => simpa using hjoint
      | cons d s => exact hs.1
    rw [List.cons_append, marksIn, atHead_eq_nil hhead, hrest]
    rfl

end Mark

def Loop.control : Loop → Control
  | native _ | values .. | pairs .. => .collection
  | counted _ => .counter

def Chunk.marks : Chunk → List Mark
  | .openIf _ => [.opening .condition]
  | .closeIf => [.closing .condition]
  | .openLoop loop => [.opening loop.control]
  | .closeLoop loop => [.closing loop.control]
  | .markup _ | .code _ | .print _ => []

def Page.marks (page : Page) : List Mark :=
  page.flatMap Chunk.marks

theorem Chunk.atHead_text (chunk : Chunk) (hblock : ∀ s, chunk ≠ .markup s) (rest : Text) :
    Mark.atHead (chunk.text ++ rest) = chunk.marks := by
  cases chunk with
  | markup s => exact absurd rfl (hblock s)
  | code body =>
    change Mark.atHead ("<?php\n".toList ++ body ++ "\n?>".toList ++ rest) = []
    simp [Mark.atHead, Mark.all]
  | print expr =>
    change Mark.atHead ("<?= ".toList ++ expr ++ " ?>".toList ++ rest) = []
    simp [Mark.atHead, Mark.all]
  | openIf condition =>
    change Mark.atHead ("<?php if(".toList ++ condition ++ "): ?>".toList ++ rest) = [.opening .condition]
    simp [Mark.atHead, Mark.all]
  | closeIf =>
    change Mark.atHead ("<?php endif; ?>".toList ++ rest) = [.closing .condition]
    simp [Mark.atHead, Mark.all]
  | openLoop loop =>
    change Mark.atHead (loop.opening ++ rest) = [.opening loop.control]
    rw [loop.opening_eq]
    cases loop with
    | counted expr =>
      change Mark.atHead ("<?php ".toList ++ "for(".toList ++ expr ++ _ ++ rest) = [.opening .counter]
      simp [Mark.atHead, Mark.all]
    | _ =>
      change Mark.atHead ("<?php ".toList ++ "foreach(".toList ++ _ ++ _ ++ rest) =
        [.opening .collection]
      simp [Mark.atHead, Mark.all]
  | closeLoop loop =>
    cases loop with
    | counted expr =>
      change Mark.atHead ("<?php endfor; ?>".toList ++ rest) = [.closing .counter]
      simp [Mark.atHead, Mark.all]
    | _ =>
      change Mark.atHead ("<?php endforeach; ?>".toList ++ rest) = [.closing .collection]
      simp [Mark.atHead, Mark.all]

/-- The marks in the text of a tidy page are those of its chunks. -/
theorem Page.marksIn_text {page : Page} (h : page.Tidy) : Mark.marksIn page.text = page.marks := by
  induction page with
  | nil => rfl
  | cons chunk page ih =>
    obtain ⟨hinner, hjoint, hrest⟩ := h
    change Mark.marksIn (chunk.text ++ text page) = chunk.marks ++ marks page
    rw [← ih hrest]
    by_cases hmarkup : ∃ s, chunk = .markup s
    · obtain ⟨s, rfl⟩ := hmarkup
      exact Mark.marksIn_append hinner hjoint
    · have hblock : ∀ s, chunk ≠ .markup s := fun s hs => hmarkup ⟨s, hs⟩
      -- the mark of a block stands at its head, and behind the first bracket no other block opens
      obtain ⟨r, hr, hclear⟩ := Chunk.text_of_block hblock
      have hhead := chunk.atHead_text hblock (text page)
      rw [hr, List.cons_append] at hhead
      have hlast : ¬ ((r ++ ['>']).getLast? = some '<' ∧ (text page).head? = some '?') := by
        simp
      rw [hr, List.cons_append, Mark.marksIn, hhead, Mark.marksIn_append (hclear hinner) hlast]

theorem Page.marks_append (a b : Page) : marks (a ++ b) = marks a ++ marks b :=
  List.flatMap_append

theorem Renders.marks {s : Text} {page : Page} (h : Renders s page) : page.marks = [] := by
  induction h with
  | nil => rfl
  | @marker s rest m first last _ hfirst _ ih =>
    rw [Page.marks_append, ih, List.append_nil]
    cases m with
    | code body =>
      rcases Marker.hostCode_eq_ok hfirst with ⟨-, rfl⟩ | ⟨-, rfl⟩ <;> rfl
    | print expr =>
      obtain ⟨compiled, -, -, rfl⟩ := Marker.page_print_eq_ok hfirst
      rfl
  | char _ _ ih => exact ih

theorem keeps_neutral : Render.Keeps (fun _ => True) fun page => Mark.Neutral page.marks where
  nil := .nil
  append ha hb := Page.marks_append _ _ ▸ ha.append hb
  lineBreak := .nil
  text _ h := h.marks ▸ .nil
  comment _ := .nil
  code _ _ := .nil
  unload _ _ := .nil
  startTag _ _ := .nil
  endTag _ := .nil
  conditional := by
    intro name condition attributes body _ _ hbody
    have hmarks : Page.marks (Page.conditional condition body) =
        .opening .condition :: Page.marks body ++ [.closing .condition] := by
      simp [Page.marks, Page.conditional, Chunk.marks]
    rw [hmarks]
    exact hbody.enclose _
  looping := by
    intro name attributes loop body _ _ hbody
    have hmarks : Page.marks (Page.looping loop body) =
        .opening loop.control :: Page.marks body ++ [.closing loop.control] := by
      simp [Page.marks, Page.looping, Page.lineBreak, Chunk.marks]
    rw [hmarks]
    exact hbody.enclose _

theorem output_of_compile {options : Options} {source : Text} {template : Template}
    (hinject : options.injectAssets = false)
    (h : (compile options source).outcome = .ok template) :
    ∃ page, (renderAll (documentOf (tokenize source))).outcome = .ok page ∧
      template.output = page.text := by
  have hgenerate : ∀ document, ((Session.start false).generate document).outcome =
      (renderAll document).outcome.map Page.text := by
    intro document
    cases hr : (renderAll document).outcome <;>
      simp [Session.generate, Session.complete, Session.receive, Session.start, hr, Except.map]
  rw [outcome_compile, hinject] at h
  split at h
  · cases h
  · next tokens hscan =>
    obtain rfl := tokens_of_scan hscan
    obtain ⟨output, houtput, rfl⟩ := map_eq_ok_iff.1 h
    rw [hgenerate] at houtput
    obtain ⟨page, hpage, rfl⟩ := map_eq_ok_iff.1 houtput
    exact ⟨page, hpage, rfl⟩

/-- The control structures in a page compiled without its assets are well nested, provided that the
source opens no block, no text of it begins with a question mark, and no tag without a name comes to open
a block when the markers that hold no code are left out. -/
theorem wellNested_compile {options : Options} {source : Text} {template : Template}
    (hinject : options.injectAssets = false) (hsource : ¬ ['<', '?'] <:+: source)
    (htext : ∀ token ∈ tokenize source, token.kind = .text → token.raw.head? ≠ some '?')
    (hnameless : ∀ token ∈ tokenize source, ∀ tag ∈ token.tag?, tag.name = [] →
      ¬ ['<', '?'] <:+: Marker.withoutVoid token.raw)
    (h : (compile options source).outcome = .ok template) :
    Mark.WellNested (Mark.marksIn template.output) := by
  obtain ⟨page, hpage, houtput⟩ := output_of_compile hinject h
  have hlabels : ∀ label ∈ Node.labelsAll (documentOf (tokenize source)), label.Clear :=
    fun label hl => (readIn_of_mem_labelsAll label hl).clear hsource htext hnameless
  have hsafe := keeps_safe.renderAll _ page hlabels hpage
  have hneutral := keeps_neutral.renderAll _ page (fun _ _ => trivial) hpage
  rw [houtput, Page.marksIn_text hsafe.tidy]
  exact hneutral.wellNested

theorem wellNested_compile_loops :
    ∃ template, (compile { injectAssets := false }
        "<p loop=\"$a=>$v\" cond=\"$v\"><br loop=\"$v;;\"></p><{@ }!>".toList).outcome =
          .ok template ∧
      Mark.marksIn template.output = [.opening .collection, .opening .condition, .opening .counter,
        .closing .counter, .closing .condition, .closing .collection] ∧
      Mark.WellNested (Mark.marksIn template.output) := by
  have htext : compileText false false
      "<p loop=\"$a=>$v\" cond=\"$v\"><br loop=\"$v;;\"></p><{@ }!>".toList =
    .ok ("<?php foreach($a as $v): ?>\n".toList ++
      "<?php if($v): ?><p><?php for($v;;): ?>\n<br>\n<?php endfor; ?></p><?php endif; ?>\n".toList ++
      "<?php endforeach; ?><!>".toList) := by
    decide +kernel
  obtain ⟨template, htemplate, houtput⟩ := map_eq_ok_iff.1 htext
  refine ⟨template, htemplate, ?_, ?_⟩
  · rw [houtput]
    decide +kernel
  · exact wellNested_compile rfl (by decide +kernel) (by decide +kernel) (by decide +kernel) htemplate

/-- Without the condition on tags that have no name, a marker that holds no code can let a bracket meet
a question mark, and the text of the tag is then a mark that nothing closes. -/
theorem not_forall_wellNested_compile :
    ¬ ∀ options source template, options.injectAssets = false → ¬ ['<', '?'] <:+: source →
      ¬ ['?', '>'] <:+: source →
      (∀ token ∈ tokenize source, token.kind = .text → token.raw.head? ≠ some '?') →
      (compile options source).outcome = .ok template →
      Mark.WellNested (Mark.marksIn template.output) := by
  intro h
  have htext : compileText false false "<{@}?php if(>".toList = .ok "<?php if(>".toList := by
    decide +kernel
  obtain ⟨template, htemplate, houtput⟩ := map_eq_ok_iff.1 htext
  have hnested := h _ _ template rfl (by decide +kernel) (by decide +kernel) (by decide +kernel)
    htemplate
  rw [houtput] at hnested
  exact absurd hnested (by decide +kernel)

end MarkupTemplate
