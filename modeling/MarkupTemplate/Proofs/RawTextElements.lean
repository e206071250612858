import MarkupTemplate.Proofs.DocumentOrder
import MarkupTemplate.Token.Scan

/-!
# What the raw-text elements of a tree hold

Script and style elements are there for text and raw code. The builder knows nothing of that: it puts
every node into the innermost open element. So the tree holds nothing else in them just if no token that
stands for a comment or an element comes while such an element is the innermost open one. Closing
elements changes nothing about that.
-/

namespace MarkupTemplate

def isRawText (name : Text) : Bool :=
  Scan.rawTextElements.contains (Text.lower name)

namespace Node

def Label.isVerbatim : Label → Bool
  | .text _ | .code _ => true
  | .comment _ | .element .. => false

mutual

def holdsRawText : Node → Bool
  | .element name _ children =>
    (!isRawText name || children.all (·.label.isVerbatim)) && holdsRawTextAll children
  | _ => true

def holdsRawTextAll : List Node → Bool
  | [] => true
  | node :: nodes => holdsRawText node && holdsRawTextAll nodes

end

theorem holdsRawTextAll_append (a b : List Node) :
    holdsRawTextAll (a ++ b) = (holdsRawTextAll a && holdsRawTextAll b) := by
  induction a with
  | nil => rfl
  | cons node a ih => rw [List.cons_append, holdsRawTextAll, holdsRawTextAll, ih, Bool.and_assoc]

end Node

def inRawText (names : List Text) : Bool :=
  names.head?.any isRawText

theorem forall_not_isRawText_iff {names : List Text} :
    (∀ name ∈ names, isRawText name = false) ↔
      inRawText names = false ∧ ∀ name ∈ names.tail, isRawText name = false := by
  cases names <;> simp [inRawText]

namespace Builder

/-- The raw-text elements so far hold only text and raw code, and none of them holds an open element. -/
structure HoldsRawText (builder : Builder) : Prop where
  roots : Node.holdsRawTextAll builder.roots = true
  path : ∀ e ∈ builder.path, e.close.holdsRawText = true
  outer : ∀ name ∈ builder.names.tail, isRawText name = false

theorem holdsRawText_close_add (e : OpenElement) (node : Node) :
    (OpenElement.close { e with children := e.children ++ [node] }).holdsRawText = true ↔
      e.close.holdsRawText = true ∧ node.holdsRawText = true ∧
        (isRawText e.name = true → node.label.isVerbatim = true) := by
  simp only [OpenElement.close, Node.holdsRawText, Node.holdsRawTextAll_append, Node.holdsRawTextAll,
    List.all_append, List.all_cons, List.all_nil, Bool.and_true, Bool.and_eq_true]
  cases isRawText e.name
  · simp
  · simp only [Bool.not_true, Bool.false_or, Bool.and_eq_true, forall_const]
    tauto

theorem holdsRawText_append {builder : Builder} {node : Node} :
    (builder.append node).HoldsRawText ↔ builder.HoldsRawText ∧ node.holdsRawText = true ∧
      (inRawText builder.names = true → node.label.isVerbatim = true) := by
  have hnames : (builder.append node).names = builder.names := names_append builder node
  cases hp : builder.path with
  | nil =>
    have happend : builder.append node = { builder with roots := builder.roots ++ [node] } := by
      simp [append, hp]
    have hroots : Node.holdsRawTextAll (builder.append node).roots = true ↔
        Node.holdsRawTextAll builder.roots = true ∧ node.holdsRawText = true := by
      simp [happend, Node.holdsRawTextAll_append, Node.holdsRawTextAll]
    have hnil : builder.names = [] := by simp [names, hp]
    constructor
    · intro h
      obtain ⟨hall, hnode⟩ := hroots.1 h.roots
      exact ⟨⟨hall, by simp [hp], hnames ▸ h.outer⟩, hnode, by simp [hnil, inRawText]⟩
    · rintro ⟨h, hnode, -⟩
      exact ⟨hroots.2 ⟨h.roots, hnode⟩, by simp [happend, hp], hnames ▸ h.outer⟩
  | cons inner outer =>
    have happend : builder.append node =
        { builder with path := { inner with children := inner.children ++ [node] } :: outer } := by
      simp [append, hp]
    have hin : inRawText builder.names = isRawText inner.name := by simp [names, hp, inRawText]
    rw [hin]
    constructor
    · intro h
      have hpath := h.path
      rw [happend, List.forall_mem_cons, holdsRawText_close_add] at hpath
      obtain ⟨⟨hinner, hnode, hverbatim⟩, houter⟩ := hpath
      refine ⟨⟨?_, ?_, hnames ▸ h.outer⟩, hnode, hverbatim⟩
      · simpa only [happend] using h.roots
      · exact hp ▸ List.forall_mem_cons.2 ⟨hinner, houter⟩
    · rintro ⟨h, hnode, hverbatim⟩
      have hpath := h.path
      rw [hp, List.forall_mem_cons] at hpath
      refine ⟨?_, ?_, hnames ▸ h.outer⟩
      · simpa only [happend] using h.roots
      · rw [happend]
        exact List.forall_mem_cons.2
          ⟨(holdsRawText_close_add inner node).2 ⟨hpath.1, hnode, hverbatim⟩, hpath.2⟩

theorem holdsRawText_enter {builder : Builder} {name : Text} {attributes : Attributes} :
    (builder.enter name attributes).HoldsRawText ↔
      builder.HoldsRawText ∧ inRawText builder.names = false := by
  have hempty : (OpenElement.close ⟨name, attributes, []⟩).holdsRawText = true := by
    simp [OpenElement.close, Node.holdsRawText, Node.holdsRawTextAll]
  constructor
  · intro h
    obtain ⟨hin, houter⟩ := forall_not_isRawText_iff.1 h.outer
    exact ⟨⟨h.roots, fun e he => h.path e (List.mem_cons_of_mem _ he), houter⟩, hin⟩
  · rintro ⟨h, hin⟩
    exact ⟨h.roots, List.forall_mem_cons.2 ⟨hempty, h.path⟩, forall_not_isRawText_iff.2 ⟨hin, h.outer⟩⟩

theorem holdsRawText_leave {builder : Builder} :
    builder.leave.HoldsRawText ↔ builder.HoldsRawText := by
  cases hp : builder.path with
  | nil => simp [leave, hp]
  | cons inner outer =>
    have hleave : builder.leave = { builder with path := outer }.append inner.close := by
      simp [leave, hp]
    have hverbatim : inner.close.label.isVerbatim = false := rfl
    have hnames : builder.names.tail = names { builder with path := outer } := by simp [names, hp]
    rw [hleave, holdsRawText_append, hverbatim]
    constructor
    · rintro ⟨h, hinner, hin⟩
      refine ⟨h.roots, hp ▸ List.forall_mem_cons.2 ⟨hinner, h.path⟩, hnames ▸ ?_⟩
      exact forall_not_isRawText_iff.2 ⟨Bool.eq_false_iff.2 fun h => Bool.false_ne_true (hin h), h.outer⟩
    · intro h
      have hpath := h.path
      rw [hp, List.forall_mem_cons] at hpath
      obtain ⟨hin, houter⟩ := forall_not_isRawText_iff.1 (hnames ▸ h.outer)
      exact ⟨⟨h.roots, hpath.2, houter⟩, hpath.1, fun h => by rw [hin] at h; exact h⟩

theorem holdsRawText_leaveTimes {n : Nat} {builder : Builder} :
    (leaveTimes n builder).HoldsRawText ↔ builder.HoldsRawText := by
  induction n generalizing builder with
  | zero => exact Iff.rfl
  | succ n ih => rw [leaveTimes, ih, holdsRawText_leave]

theorem holdsRawText_noteAll {builder : Builder} {ds : List Diagnostic} :
    (builder.noteAll ds).HoldsRawText ↔ builder.HoldsRawText := by
  have hquiet : ∀ b : Builder, b.quiet.HoldsRawText ↔ b.HoldsRawText :=
    fun b => ⟨fun h => ⟨h.roots, h.path, h.outer⟩, fun h => ⟨h.roots, h.path, h.outer⟩⟩
  rw [← hquiet, quiet_noteAll, hquiet]

theorem holdsRawText_close {builder : Builder} {name : Text} {position : Nat} :
    (builder.close name position).HoldsRawText ↔ builder.HoldsRawText := by
  unfold close
  split
  · rw [holdsRawText_leaveTimes, holdsRawText_noteAll]
  · change (builder.noteAll [unexpectedEndTag position name]).HoldsRawText ↔ _
    exact holdsRawText_noteAll

theorem holdsRawText_add {builder : Builder} {token : Token} :
    (builder.add token).HoldsRawText ↔ builder.HoldsRawText ∧
      (inRawText builder.names = true → ∀ label ∈ token.lexeme.label?, label.isVerbatim = true) := by
  have hleaf : ∀ {node : Node}, node.holdsRawText = true →
      ((builder.append node).HoldsRawText ↔ builder.HoldsRawText ∧
        (inRawText builder.names = true → ∀ label ∈ some node.label, label.isVerbatim = true)) := by
    intro node hnode
    simp [holdsRawText_append, hnode]
  obtain ⟨lexeme, position⟩ := token
  cases lexeme with
  | text data => exact hleaf rfl
  | comment data => exact hleaf rfl
  | code raw => exact hleaf rfl
  | tag raw t =>
    simp only [add, addTag, Lexeme.label?]
    split_ifs with hname hclosing hasset hsingle
    · exact hleaf rfl
    · simp
    · simp [holdsRawText_close]
    · have hempty : Node.holdsRawText (.element t.name t.attributes []) = true := by
        simp [Node.holdsRawText, Node.holdsRawTextAll]
      exact hleaf hempty
    · simp [holdsRawText_enter, Node.Label.isVerbatim]

theorem holdsRawText_addAll {builder : Builder} {tokens : List Token} :
    (builder.addAll tokens).HoldsRawText ↔ builder.HoldsRawText ∧
      ∀ before token after, tokens = before ++ token :: after →
        inRawText (builder.addAll before).names = true →
        ∀ label ∈ token.lexeme.label?, label.isVerbatim = true := by
  induction tokens generalizing builder with
  | nil => simp [addAll]
  | cons token tokens ih =>
    have hcons : builder.addAll (token :: tokens) = (builder.add token).addAll tokens := rfl
    rw [hcons, ih, holdsRawText_add, and_assoc]
    refine and_congr_right fun _ => ⟨?_, ?_⟩
    · rintro ⟨hfirst, hrest⟩ before token' after hsplit
      cases before with
      | nil =>
        obtain ⟨rfl, -⟩ := List.cons.inj hsplit
        exact hfirst
      | cons t before =>
        obtain ⟨rfl, htokens⟩ := List.cons.inj hsplit
        exact hrest before token' after htokens
    · intro h
      refine ⟨h [] token tokens rfl, fun before token' after hsplit => ?_⟩
      exact h (token :: before) token' after (by rw [hsplit]; rfl)

end Builder

def openAfter (tokens : List Token) : List Text :=
  ((Builder.start false).addAll tokens).names

theorem holdsRawTextAll_documentOf {tokens : List Token} :
    Node.holdsRawTextAll (documentOf tokens) = true ↔
      ∀ before token after, tokens = before ++ token :: after → inRawText (openAfter before) = true →
        ∀ label ∈ token.lexeme.label?, label.isVerbatim = true := by
  have hstart : (Builder.start false).HoldsRawText :=
    ⟨rfl, by simp [Builder.start], by simp [Builder.start, Builder.names]⟩
  have hfinish : (build false tokens).HoldsRawText ↔ ((Builder.start false).addAll tokens).HoldsRawText := by
    rw [build, Builder.finish, Builder.holdsRawText_leaveTimes, Builder.holdsRawText_noteAll]
  have hpath : (build false tokens).path = [] := Builder.path_finish _
  have hdocument : Node.holdsRawTextAll (documentOf tokens) = true ↔ (build false tokens).HoldsRawText :=
    ⟨fun h => ⟨h, by simp [hpath], by simp [Builder.names, hpath]⟩, fun h => h.roots⟩
  rw [hdocument, hfinish, Builder.holdsRawText_addAll]
  exact ⟨fun h => h.2, fun h => ⟨hstart, h⟩⟩

end MarkupTemplate
