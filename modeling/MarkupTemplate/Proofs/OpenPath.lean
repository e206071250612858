import MarkupTemplate.Proofs.DocumentOrder

/-!
# The states of a builder

A builder takes tokens and may be finished at any time, also in between. Each step keeps the nodes of the
tree in the order of the tokens and gives no children to a void element or an asset declaration. The
elements that are open lead down the right edge of the tree, so a node that is appended to the innermost
comes last.
-/

namespace MarkupTemplate

/-- `path` leads down the right edge of the tree below `siblings`: each of its nodes is the last child of
the one before it. -/
def Node.RightEdge : List Node → List Node → Prop
  | _, [] => True
  | siblings, node :: path => siblings.getLast? = some node ∧ RightEdge node.children path

def OpenElement.label (e : OpenElement) : Node.Label :=
  .element e.name e.attributes

namespace Builder

inductive Action
  | add (token : Token)
  | finish

def Action.token? : Action → Option Token
  | add token => some token
  | finish => none

def act (builder : Builder) : Action → Builder
  | .add token => builder.add token
  | .finish => builder.finish

def run (builder : Builder) (actions : List Action) : Builder :=
  actions.foldl act builder

def siblings (builder : Builder) : List Node :=
  match builder.path with
  | [] => builder.roots
  | inner :: _ => inner.children

theorem siblings_append (builder : Builder) (node : Node) :
    (builder.append node).siblings = builder.siblings ++ [node] := by
  cases hp : builder.path <;> simp [append, siblings, hp]

theorem map_label_append (builder : Builder) (node : Node) :
    (builder.append node).path.map OpenElement.label = builder.path.map OpenElement.label := by
  cases hp : builder.path <;> simp [append, hp, OpenElement.label]

theorem document_leave (builder : Builder) : builder.leave.document = builder.document := by
  cases hp : builder.path with
  | nil => simp [leave, hp]
  | cons inner outer =>
    have hlength : builder.leave.path.length = outer.length := by
      have hnames := congrArg List.length (names_leave builder)
      simpa [names, hp] using hnames
    rw [document, document, hlength, hp, List.length_cons, leaveTimes]

/-- The open elements lead to the place where the next node goes, and whatever leads down the right edge
from there leads down the right edge of the tree. The innermost element is closed first, which leaves the
tree as it is. -/
theorem exists_rightEdge (builder : Builder) {below : List Node}
    (h : Node.RightEdge builder.siblings below) :
    ∃ path, builder.path.reverse.map OpenElement.label = path.map Node.label ∧
      Node.RightEdge builder.document (path ++ below) := by
  induction hn : builder.path.length generalizing builder below with
  | zero =>
    have hpath : builder.path = [] := List.length_eq_zero_iff.1 hn
    have hroots : builder.siblings = builder.document := by
      simp [siblings, document, hpath, leaveTimes]
    exact ⟨[], by simp [hpath], hroots ▸ h⟩
  | succ n ih =>
    obtain ⟨inner, outer, hp⟩ := List.exists_cons_of_length_eq_add_one hn
    have hleave : builder.leave = { builder with path := outer }.append inner.close := by
      simp [leave, hp]
    have hlabels : builder.leave.path.map OpenElement.label = outer.map OpenElement.label := by
      rw [hleave, map_label_append]
    have hlength : builder.leave.path.length = n := by
      have := congrArg List.length hlabels
      simp only [List.length_map] at this
      simp only [hp, List.length_cons] at hn
      omega
    have hbelow : Node.RightEdge builder.leave.siblings (inner.close :: below) := by
      refine ⟨by rw [hleave, siblings_append, List.getLast?_concat], ?_⟩
      have hchildren : builder.siblings = inner.close.children := by
        simp [siblings, hp, OpenElement.close, Node.children]
      exact hchildren ▸ h
    obtain ⟨path, hpath, hedge⟩ := ih builder.leave hbelow hlength
    refine ⟨path ++ [inner.close], ?_, ?_⟩
    · rw [List.map_reverse, hlabels, ← List.map_reverse] at hpath
      simp [hp, hpath, OpenElement.label, OpenElement.close, Node.label]
    · rw [document_leave] at hedge
      simpa using hedge

theorem openNames_eq (builder : Builder) :
    builder.openNames =
      "#document".toList :: (builder.path.reverse.map OpenElement.label).map Node.Label.name := by
  simp only [openNames, List.map_map]
  rfl

theorem document_quiet (builder : Builder) : builder.quiet.document = builder.document :=
  (congrArg roots (quiet_leaveTimes builder builder.path.length)).symm

theorem labelsAll_document (builder : Builder) :
    Node.labelsAll builder.document = builder.labels := by
  rw [← document_quiet, ← roots_finish, labelsAll_finish]

theorem Proper.noteAll {builder : Builder} (h : builder.Proper) (ds : List Diagnostic) :
    (builder.noteAll ds).Proper := by
  have hquiet : (builder.noteAll ds).quiet.Proper := quiet_noteAll builder ds ▸ h.quiet
  exact ⟨hquiet.roots, hquiet.path⟩

theorem Proper.close {builder : Builder} (h : builder.Proper) (name : Text) (position : Nat) :
    (builder.close name position).Proper := by
  unfold Builder.close
  split
  · exact (h.noteAll _).leaveTimes _
  · exact h.noteAll [unexpectedEndTag position name]

theorem Proper.enter {builder : Builder} (h : builder.Proper) {name : Text} (attributes : Attributes)
    (hname : isChildless name = false) : (builder.enter name attributes).Proper := by
  refine ⟨h.roots, fun e he => ?_⟩
  rcases List.mem_cons.1 he with rfl | he
  · exact ⟨hname, trivial⟩
  · exact h.path e he

theorem Proper.add {builder : Builder} (h : builder.Proper) (token : Token) :
    (builder.add token).Proper := by
  obtain ⟨lexeme, position⟩ := token
  cases lexeme with
  | text data => exact h.append trivial
  | comment data => exact h.append trivial
  | code raw => exact h.append trivial
  | tag raw tag =>
    simp only [Builder.add, addTag]
    split_ifs with _ _ _ hsingle
    · exact h.append trivial
    · exact h
    · exact h.close _ _
    · exact h.append ⟨fun _ => rfl, trivial⟩
    · rw [Bool.not_eq_true, Bool.or_eq_false_iff] at hsingle
      exact h.enter _ hsingle.2

theorem Proper.act {builder : Builder} (h : builder.Proper) (action : Action) :
    (builder.act action).Proper := by
  cases action with
  | add token => exact h.add token
  | finish => exact (h.noteAll _).leaveTimes _

theorem labels_act (builder : Builder) (action : Action) :
    (builder.act action).labels =
      builder.labels ++ action.token?.toList.filterMap fun token => token.lexeme.label? := by
  cases action with
  | add token =>
    rw [act, labels_add]
    cases hl : token.lexeme.label? <;> simp [Action.token?, hl]
  | finish => simp [act, finish, labels_leaveTimes, labels_noteAll, Action.token?]

theorem labels_run (builder : Builder) (actions : List Action) :
    (builder.run actions).labels =
      builder.labels ++ (actions.filterMap Action.token?).filterMap fun token => token.lexeme.label? := by
  induction actions generalizing builder with
  | nil => simp [run]
  | cons action actions ih =>
    have hrest := ih (builder.act action)
    simp only [run, List.foldl_cons] at hrest ⊢
    rw [hrest, labels_act, List.append_assoc, ← List.filterMap_append, List.filterMap_cons]
    cases action <;> rfl

theorem Proper.run {builder : Builder} (h : builder.Proper) (actions : List Action) :
    (builder.run actions).Proper :=
  List.foldlRecOn actions Builder.act h fun _ hb action _ => hb.act action

theorem proper_build (collect : Bool) (tokens : List Token) : (build collect tokens).Proper := by
  have hall : ((start collect).addAll tokens).Proper :=
    List.foldlRecOn tokens Builder.add (proper_start collect) fun _ h token _ => h.add token
  exact hall.act .finish

end Builder

end MarkupTemplate
