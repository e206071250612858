import MarkupTemplate.Proofs.PlainMarkup

/-!
# Markup without directives keeps its shape

A page that holds no code, no markers, no directives and no asset declarations is compiled to a page
with the same tree: the same texts and comments, and the same elements in the same places. Only the
attributes differ: their values are escaped, and those named like their element are gone.

The compiled text is the linear form of the tree, printed; printed markup is read back event by event;
and the linear form of a tree builds the tree.
-/

namespace MarkupTemplate

namespace Attributes

def isPlain (attributes : Attributes) : Bool :=
  attributes.all fun (name, value) =>
    name != "cond".toList && name != "loop".toList &&
      match value with
      | .text value => value.getLast? != some '\\'
      | _ => true

end Attributes

namespace Lexeme

def isPlain : Lexeme → Bool
  | text data => !hasMarker data
  | comment data => !data.isEmpty && !Text.occursIn ['/', '/'] data
  | code _ => false
  | tag raw t =>
    if t.name.isEmpty then !hasMarker raw
    else !isLoad t.name && !isUnload t.name && !Render.isFragment t.name && t.attributes.isPlain

end Lexeme

/-- A source that is plain markup: nothing in it is cut short, every closing tag closes something, and
there is nothing in it to compile. -/
structure DirectiveFree (source : Text) : Prop where
  complete : Scan.diagnostics source = []
  matched : ∀ d ∈ (build true (tokenize source)).diagnostics, d.code ≠ "unexpected-end-tag".toList
  plain : ∀ token ∈ tokenize source, token.lexeme.isPlain = true

mutual

def Node.reprinted : Node → Node
  | .element name attributes children =>
    .element name (attributes.reprinted name) (Node.reprintedAll children)
  | node => node

def Node.reprintedAll : List Node → List Node
  | [] => []
  | node :: nodes => Node.reprinted node :: Node.reprintedAll nodes

end

namespace Node

mutual

theorem events_reprinted : ∀ node : Node, node.reprinted.events = node.events.map Event.reprinted
  | .text data => rfl
  | .comment data => rfl
  | .code data => rfl
  | .element name attributes children => by
    rw [reprinted, events, events]
    split
    · rfl
    · rw [eventsAll_reprintedAll children, List.map_append]
      rfl

theorem eventsAll_reprintedAll :
    ∀ nodes : List Node, eventsAll (reprintedAll nodes) = (eventsAll nodes).map Event.reprinted
  | [] => rfl
  | node :: nodes => by
    rw [reprintedAll, eventsAll, eventsAll, events_reprinted node, eventsAll_reprintedAll nodes,
      List.map_append]

end

mutual

theorem proper_reprinted : ∀ node : Node, node.Proper → node.reprinted.Proper
  | .text data, _ => trivial
  | .comment data, _ => trivial
  | .code data, _ => trivial
  | .element name attributes children, h => by
    refine ⟨fun hc => ?_, properAll_reprintedAll children h.2⟩
    rw [h.1 hc]
    rfl

theorem properAll_reprintedAll :
    ∀ nodes : List Node, ProperAll nodes → ProperAll (reprintedAll nodes)
  | [], _ => trivial
  | node :: nodes, h => ⟨proper_reprinted node h.1, properAll_reprintedAll nodes h.2⟩

end

mutual

theorem not_isChildless_of_leave {name : Text} :
    ∀ node : Node, Event.leave name ∈ node.events → isChildless name = false
  | .text data, h => by simp [events] at h
  | .comment data, h => by simp [events] at h
  | .code data, h => by simp [events] at h
  | .element n attributes children, h => by
    rw [events] at h
    split at h
    · simp at h
    · next hc =>
      rw [List.cons_append, List.mem_cons, List.mem_append, List.mem_singleton] at h
      rcases h with h | h | h
      · cases h
      · exact not_isChildless_of_leaveAll children h
      · cases h
        exact Bool.eq_false_iff.2 hc

theorem not_isChildless_of_leaveAll {name : Text} :
    ∀ nodes : List Node, Event.leave name ∈ eventsAll nodes → isChildless name = false
  | [], h => absurd h List.not_mem_nil
  | node :: nodes, h => by
    rw [eventsAll, List.mem_append] at h
    rcases h with h | h
    · exact not_isChildless_of_leave node h
    · exact not_isChildless_of_leaveAll nodes h

end

end Node

namespace Attributes

theorem not_has_of_isPlain {attributes : Attributes} (h : attributes.isPlain = true) :
    attributes.has Render.condAttribute = false ∧ attributes.has Render.loopAttribute = false := by
  have hnames : ∀ item ∈ attributes, item.1 ≠ "cond".toList ∧ item.1 ≠ "loop".toList := by
    intro item hi
    have hitem := List.all_eq_true.1 h item hi
    simp only [Bool.and_eq_true, bne_iff_ne] at hitem
    exact hitem.1
  constructor
  · refine List.any_eq_false.2 fun item hi he => ?_
    exact (hnames item hi).1 (beq_iff_eq.1 he)
  · refine List.any_eq_false.2 fun item hi he => ?_
    exact (hnames item hi).2 (beq_iff_eq.1 he)

theorem getLast?_of_isPlain {attributes : Attributes} (h : attributes.isPlain = true)
    {item : Text × AttributeValue} (hi : item ∈ attributes) {value : Text}
    (hv : item.2 = .text value) : value.getLast? ≠ some '\\' := by
  have hitem := List.all_eq_true.1 h item hi
  rw [Bool.and_eq_true, hv] at hitem
  exact bne_iff_ne.1 hitem.2

end Attributes

namespace Lexeme

theorem isPlain_tag {raw : Text} {t : Tag} (h : (tag raw t).isPlain = true) (hn : t.name ≠ []) :
    isLoad t.name = false ∧ isUnload t.name = false ∧ Render.isFragment t.name = false ∧
      t.attributes.isPlain = true := by
  rw [isPlain, if_neg fun he => hn (List.isEmpty_iff.1 he)] at h
  simp only [Bool.and_eq_true, Bool.not_eq_true'] at h
  obtain ⟨⟨⟨hload, hunload⟩, hblock⟩, hattributes⟩ := h
  exact ⟨hload, hunload, hblock, hattributes⟩

theorem not_isAssetEnd_of_isPlain {lexeme : Lexeme} (h : lexeme.isPlain = true) :
    lexeme.isAssetEnd = false := by
  cases lexeme with
  | text data => rfl
  | comment data => rfl
  | code raw => rfl
  | tag raw t =>
    rw [isAssetEnd]
    by_cases hn : t.name = []
    · rw [hn, Bool.and_eq_false_iff]
      exact .inr rfl
    · obtain ⟨hload, hunload, -⟩ := isPlain_tag h hn
      rw [hload, hunload, Bool.or_false, Bool.and_false]

theorem event_of_isAssetEnd {lexeme : Lexeme} (h : lexeme.isAssetEnd = true) :
    ∃ name, lexeme.event = .leave name ∧ isChildless name = true := by
  cases lexeme with
  | text data => cases h
  | comment data => cases h
  | code raw => cases h
  | tag raw t =>
    rw [isAssetEnd, Bool.and_eq_true, Bool.or_eq_true] at h
    obtain ⟨hc, hasset⟩ := h
    have hn : t.name.isEmpty = false := by
      cases hname : t.name with
      | nil =>
        rw [hname] at hasset
        exact absurd hasset (by decide)
      | cons c name => rfl
    refine ⟨t.name, ?_, ?_⟩
    · rw [event, hn, hc]
      rfl
    · rw [isChildless, Bool.or_assoc, Bool.or_eq_true, Bool.or_eq_true]
      exact .inr hasset

theorem plain_event {lexeme : Lexeme} (h : lexeme.isPlain = true)
    (hread : ∀ raw t, lexeme = .tag raw t → t = .read raw) : lexeme.event.Plain := by
  cases lexeme with
  | text data => exact (Bool.not_eq_true' _).mp h
  | comment data =>
    rw [isPlain, Bool.and_eq_true, Bool.not_eq_true', Bool.not_eq_true'] at h
    refine ⟨fun hd => ?_, fun hin => ?_⟩
    · rw [hd] at h
      cases h.1
    · rw [Text.occursIn_iff.2 hin] at h
      cases h.2
  | code raw => cases h
  | tag raw t =>
    have hname : t.name ≠ [] → Tag.IsName t.name := by
      rw [hread raw t rfl]
      exact Tag.isName_read
    by_cases hn : t.name = []
    · rw [isPlain, if_pos (List.isEmpty_iff.2 hn)] at h
      rw [event, if_pos (List.isEmpty_iff.2 hn)]
      exact (Bool.not_eq_true' _).mp h
    · obtain ⟨hload, hunload, hblock, hattributes⟩ := isPlain_tag h hn
      obtain ⟨hcond, hloop⟩ := Attributes.not_has_of_isPlain hattributes
      have hplain : Event.Plain (.enter t.name t.attributes) :=
        ⟨hname hn, hload, hunload, hblock, hcond, hloop⟩
      rw [event, if_neg fun he => hn (List.isEmpty_iff.1 he)]
      split_ifs
      · exact trivial
      · exact hplain
      · exact hplain

theorem survives_of_isPlain {lexeme : Lexeme} (h : lexeme.isPlain = true)
    (hread : ∀ raw t, lexeme = .tag raw t → t = .read raw) : Scan.Survives lexeme := by
  cases lexeme with
  | text data => exact trivial
  | comment data => exact trivial
  | code raw => cases h
  | tag raw t =>
    intro hn _
    obtain ⟨-, -, -, hattributes⟩ := isPlain_tag h hn
    obtain rfl := hread raw t rfl
    obtain ⟨hnodup, hitems⟩ := Tag.attributes_read raw
    refine ⟨Tag.isName_read hn, hnodup, fun item hi => ?_⟩
    obtain ⟨hname, hgiven⟩ := hitems item hi
    exact ⟨hname, hgiven, fun value hv => Attributes.getLast?_of_isPlain hattributes hi hv⟩

end Lexeme

namespace Scan

theorem map_lexeme_tokensFrom (position : Nat) (pieces : List Piece) :
    (tokensFrom position pieces).map (·.lexeme) = pieces.map (·.lexeme) := by
  induction pieces generalizing position with
  | nil => rfl
  | cons piece rest ih => rw [tokensFrom, List.map_cons, List.map_cons, ih]

theorem cut_of_cutsFrom {position : Nat} {pieces : List Piece} (h : cutsFrom position pieces = []) :
    ∀ piece ∈ pieces, piece.cut = none := by
  induction pieces generalizing position with
  | nil => exact fun piece hp => absurd hp List.not_mem_nil
  | cons first rest ih =>
    intro piece hp
    rw [cutsFrom] at h
    split at h
    · cases h
    · next hc =>
      rcases List.mem_cons.1 hp with rfl | hp
      · exact hc
      · exact ih h piece hp

theorem tag_of_step {mode : Mode} {c : Char} {s raw : Text} {t : Tag}
    (h : (step mode c s).piece.lexeme = .tag raw t) : t = .read raw := by
  rcases step_cases mode c s with ⟨u, -, -, he⟩ | ⟨u, -, -, -, he⟩ | ⟨-, -, -, he⟩ | ⟨-, he⟩
  · rw [he] at h
    cases h
  · rw [he, commentStep] at h
    split at h
    · cases h
    · cases h
  · rw [he] at h
    cases h
    rfl
  · rw [he] at h
    cases h

theorem tag_of_mem_piecesFrom {mode : Mode} {s : Text} :
    ∀ piece ∈ piecesFrom mode s, ∀ raw t, piece.lexeme = .tag raw t → t = .read raw := by
  fun_induction piecesFrom mode s with
  | case1 => exact fun piece hp => absurd hp List.not_mem_nil
  | case2 mode c s next ih =>
    intro piece hp raw t hl
    rcases List.mem_cons.1 hp with rfl | hp
    · exact tag_of_step hl
    · exact ih piece hp raw t hl

end Scan

theorem lexemes_tokenize (source : Text) :
    (tokenize source).map (·.lexeme) = (Scan.pieces source).map (·.lexeme) :=
  Scan.map_lexeme_tokensFrom 0 _

theorem events_tokenize (source : Text) :
    (tokenize source).map (·.lexeme.event) = Scan.eventsFrom .content source := by
  have h := congrArg (List.map Lexeme.event) (lexemes_tokenize source)
  rw [List.map_map, List.map_map] at h
  exact h

namespace DirectiveFree

variable {source : Text}

theorem cuts_eq_nil (h : DirectiveFree source) : Scan.cuts source = [] :=
  List.map_eq_nil_iff.1 h.complete

theorem not_isAssetEnd (h : DirectiveFree source) :
    ∀ token ∈ tokenize source, token.lexeme.isAssetEnd = false :=
  fun token ht => Lexeme.not_isAssetEnd_of_isPlain (h.plain token ht)

theorem isPlain_piece (h : DirectiveFree source) :
    ∀ piece ∈ Scan.pieces source, piece.lexeme.isPlain = true := by
  intro piece hp
  have hmem : piece.lexeme ∈ (tokenize source).map (·.lexeme) := by
    rw [lexemes_tokenize]
    exact List.mem_map_of_mem hp
  obtain ⟨token, ht, he⟩ := List.mem_map.1 hmem
  rw [← he]
  exact h.plain token ht

theorem repeats (h : DirectiveFree source) : Scan.Repeats .content [] source where
  sync := Scan.inSync_content []
  isName := fun n hn => absurd hn List.not_mem_nil
  complete := Scan.cut_of_cutsFrom h.cuts_eq_nil
  survives := fun piece hp =>
    Lexeme.survives_of_isPlain (h.isPlain_piece piece hp) (Scan.tag_of_mem_piecesFrom piece hp)
  matched := by
    have hstart : (Builder.start true).collect = true := rfl
    rw [← events_tokenize]
    exact matched_of_diagnostics hstart h.not_isAssetEnd h.matched

theorem plain_events (h : DirectiveFree source) :
    ∀ event ∈ Scan.eventsFrom .content source, event.Plain := by
  intro event he
  obtain ⟨piece, hp, rfl⟩ := List.mem_map.1 he
  exact Lexeme.plain_event (h.isPlain_piece piece hp) (Scan.tag_of_mem_piecesFrom piece hp)

end DirectiveFree

theorem proper_of_mem_eventsFrom {mode : Scan.Mode} {s : Text} :
    ∀ event ∈ Scan.eventsFrom mode s, event.Proper := by
  intro event he
  obtain ⟨piece, -, rfl⟩ := List.mem_map.1 he
  exact piece.lexeme.proper_event

theorem documentOf_tokenize {source : Text}
    (h : ∀ token ∈ tokenize source, token.lexeme.isAssetEnd = false) :
    Node.ProperAll (documentOf (tokenize source)) ∧
      Node.eventsAll (documentOf (tokenize source)) =
        Event.linearAll [] (Scan.eventsFrom .content source) := by
  rw [documentOf_eq h, events_tokenize]
  have hstart := Builder.proper_start false
  exact ⟨(hstart.performAll proper_of_mem_eventsFrom).document,
    Builder.eventsAll_performAll hstart proper_of_mem_eventsFrom⟩

theorem documentOf_of_eventsFrom {s : Text} {nodes : List Node} (hp : Node.ProperAll nodes)
    (h : Scan.eventsFrom .content s = Node.eventsAll nodes) : documentOf (tokenize s) = nodes := by
  have hend : ∀ token ∈ tokenize s, token.lexeme.isAssetEnd = false := by
    intro token ht
    by_contra hasset
    obtain ⟨name, he, hc⟩ := Lexeme.event_of_isAssetEnd (Bool.not_eq_false _ ▸ hasset)
    have hmem : Event.leave name ∈ Node.eventsAll nodes := by
      rw [← h, ← events_tokenize, ← he]
      exact List.mem_map_of_mem ht
    rw [Node.not_isChildless_of_leaveAll nodes hmem] at hc
    cases hc
  rw [documentOf_eq hend, events_tokenize, h]
  exact Builder.document_eventsAll hp

/-- Compiling plain markup succeeds and keeps the tree: every node stays where it is, with its name,
its text and its attributes in their order, except that attribute values are escaped and attributes
named like their element are left out. -/
theorem documentOf_compileText {source : Text} (h : DirectiveFree source)
    (strict injectAssets : Bool) :
    ∃ output, compileText strict injectAssets source = .ok output ∧
      documentOf (tokenize output) = Node.reprintedAll (documentOf (tokenize source)) := by
  obtain ⟨hproper, hevents⟩ := documentOf_tokenize h.not_isAssetEnd
  obtain ⟨page, hpage, htext⟩ := renderAll_plain _ hproper (by
    rw [hevents]
    exact Event.plain_linearAll h.plain_events [])
  refine ⟨Page.text page, compileText_of_renderAll h.cuts_eq_nil hpage strict injectAssets, ?_⟩
  refine documentOf_of_eventsFrom (Node.properAll_reprintedAll _ hproper) ?_
  rw [htext, Node.eventsAll_reprintedAll, hevents]
  exact Scan.eventsFrom_markupAll h.repeats

def samplePage : Text :=
  ("<!DOCTYPE html><div DIV=\"x\" id='a&b' hidden><br><p/>one<!-- two -->" ++
    "<Script>if (a<b) \"</p>\";</script><ul><li>three</DIV><hr/>").toList

theorem documentOf_compileText_samplePage :
    DirectiveFree samplePage ∧ ∃ output, compileText false true samplePage = .ok output ∧
      documentOf (tokenize output) = Node.reprintedAll (documentOf (tokenize samplePage)) := by
  have hfree : DirectiveFree samplePage :=
    ⟨List.isEmpty_iff.1 (by decide +kernel), by decide +kernel, by decide +kernel⟩
  exact ⟨hfree, documentOf_compileText hfree false true⟩

end MarkupTemplate
