import MarkupTemplate.Proofs.Event

/-!
# Nodes in document order

The labels of a document in document order are those of its tokens: each token other than a closing tag
with a name stands for one node, and the nodes come in the order of the tokens. Building goes on at the
end of the listing only. Entering an element and appending a node add to it; closing elements, and
noting what was recovered from, leave it as it is.
-/

namespace MarkupTemplate

namespace Node

def labels (node : Node) : List Label :=
  (listing 0 node).map Prod.snd

def labelsAll (nodes : List Node) : List Label :=
  (listingAll 0 nodes).map Prod.snd

mutual

theorem map_snd_listing (depth : Nat) : ∀ node : Node,
    (listing depth node).map Prod.snd = node.labels
  | .text _ | .comment _ | .code _ => rfl
  | .element name attributes children => by
    simp only [labels, listing, List.map_cons, map_snd_listingAll _ children]

theorem map_snd_listingAll (depth : Nat) : ∀ nodes : List Node,
    (listingAll depth nodes).map Prod.snd = labelsAll nodes
  | [] => rfl
  | node :: nodes => by
    have hnode : (listing 0 node).map Prod.snd = node.labels := rfl
    have hnodes : (listingAll 0 nodes).map Prod.snd = labelsAll nodes := rfl
    rw [labelsAll, listingAll, listingAll, List.map_append, List.map_append,
      map_snd_listing depth node, map_snd_listingAll depth nodes, hnode, hnodes]

end

@[simp] theorem labels_text (data : Text) : (text data).labels = [.text data] := rfl

@[simp] theorem labels_comment (data : Text) : (comment data).labels = [.comment data] := rfl

@[simp] theorem labels_code (data : Text) : (code data).labels = [.code data] := rfl

@[simp] theorem labels_element (name : Text) (attributes : Attributes) (children : List Node) :
    (element name attributes children).labels = .element name attributes :: labelsAll children := by
  simp [labels, listing, map_snd_listingAll]

@[simp] theorem labelsAll_nil : labelsAll [] = [] := rfl

@[simp] theorem labelsAll_cons (node : Node) (nodes : List Node) :
    labelsAll (node :: nodes) = node.labels ++ labelsAll nodes := by
  simp [labelsAll, listingAll, labels]

@[simp] theorem labelsAll_append (a b : List Node) :
    labelsAll (a ++ b) = labelsAll a ++ labelsAll b := by
  induction a with
  | nil => rfl
  | cons node a ih => simp [ih]

end Node

/-- The label of the node that a lexeme stands for. A closing tag with a name stands for none. -/
def Lexeme.label? : Lexeme → Option Node.Label
  | text data => some (.text data)
  | comment data => some (.comment data)
  | code raw => some (.code raw)
  | tag raw t =>
    if t.name.isEmpty then some (.text raw)
    else if t.closing then none
    else some (.element t.name t.attributes)

namespace Builder

open Node (labelsAll)

def labels (builder : Builder) : List Node.Label :=
  labelsAll builder.roots ++
    builder.path.reverse.flatMap fun e => .element e.name e.attributes :: labelsAll e.children

theorem labels_append (builder : Builder) (node : Node) :
    (builder.append node).labels = builder.labels ++ node.labels := by
  cases hp : builder.path <;> simp [append, labels, hp]

theorem labels_enter (builder : Builder) (name : Text) (attributes : Attributes) :
    (builder.enter name attributes).labels = builder.labels ++ [.element name attributes] := by
  simp [enter, labels]

theorem labels_leave (builder : Builder) : builder.leave.labels = builder.labels := by
  cases hp : builder.path with
  | nil => simp [leave, hp]
  | cons inner outer =>
    simp only [leave, hp, labels_append]
    simp [labels, hp, OpenElement.close]

theorem labels_leaveTimes (n : Nat) (builder : Builder) :
    (leaveTimes n builder).labels = builder.labels := by
  induction n generalizing builder with
  | zero => rfl
  | succ n ih => rw [leaveTimes, ih, labels_leave]

theorem labels_noteAll (builder : Builder) (ds : List Diagnostic) :
    (builder.noteAll ds).labels = builder.labels := by
  have h := congrArg labels (quiet_noteAll builder ds)
  exact h

theorem names_noteAll (builder : Builder) (ds : List Diagnostic) :
    (builder.noteAll ds).names = builder.names := by
  have h := congrArg names (quiet_noteAll builder ds)
  exact h

theorem labels_close (builder : Builder) (name : Text) (position : Nat) :
    (builder.close name position).labels = builder.labels := by
  unfold close
  split
  · rw [labels_leaveTimes, labels_noteAll]
  · exact labels_noteAll builder [unexpectedEndTag position name]

theorem labels_add (builder : Builder) (token : Token) :
    (builder.add token).labels = builder.labels ++ token.lexeme.label?.toList := by
  obtain ⟨lexeme, position⟩ := token
  cases lexeme with
  | text data => exact labels_append builder (.text data)
  | comment data => exact labels_append builder (.comment data)
  | code raw => exact labels_append builder (.code raw)
  | tag raw t =>
    simp only [add, addTag, Lexeme.label?]
    split_ifs with hname hclosing
    · exact labels_append builder (.text raw)
    · simp
    · simp [labels_close]
    · simp [labels_append]
    · simp [labels_enter]

theorem labels_addAll (builder : Builder) (tokens : List Token) :
    (builder.addAll tokens).labels =
      builder.labels ++ tokens.filterMap fun token => token.lexeme.label? := by
  induction tokens generalizing builder with
  | nil => simp [addAll]
  | cons token tokens ih =>
    have hrest := ih (builder.add token)
    simp only [addAll, List.foldl_cons] at hrest ⊢
    rw [hrest, labels_add, List.append_assoc]
    cases hl : token.lexeme.label? <;> simp [hl]

theorem path_finish (builder : Builder) : builder.finish.path = [] := by
  have hnames : builder.finish.names = [] := by
    rw [finish, names_leaveTimes, names_noteAll]
    simp [names]
  simpa [names] using hnames

theorem labelsAll_finish (builder : Builder) :
    labelsAll builder.finish.roots = builder.labels := by
  have hlabels : builder.finish.labels = builder.labels := by
    simp [finish, labels_leaveTimes, labels_noteAll]
  simpa [labels, path_finish] using hlabels

end Builder

/-- The nodes of the tree are those that the tokens stand for, each once and in order. -/
theorem labelsAll_build (collect : Bool) (tokens : List Token) :
    Node.labelsAll (build collect tokens).roots =
      tokens.filterMap fun token => token.lexeme.label? := by
  rw [build, Builder.labelsAll_finish, Builder.labels_addAll]
  rfl

end MarkupTemplate
