import Mathlib.Tactic
import MarkupTemplate.Node.Builder

/-!
# Building as a sequence of events

For the tree, a token is one of a few events: a leaf, an element that ends at once, the start of an
element, or the end of one. Positions and diagnostics play no part in it. A tree in its turn is a
sequence of events, its linear form, in which every element that can have children is entered and
left. Building turns events into the tree whose linear form they have, once the ends that were left
out are put in; and it turns the linear form of a tree back into the tree.
-/

namespace MarkupTemplate

inductive Event
  | text (data : Text)
  | comment (data : Text)
  | code (data : Text)
  | single (name : Text) (attributes : Attributes)
  | enter (name : Text) (attributes : Attributes)
  | leave (name : Text)
deriving DecidableEq

def Lexeme.event : Lexeme → Event
  | .text data => .text data
  | .comment data => .comment data
  | .code raw => .code raw
  | .tag raw t =>
    if t.name.isEmpty then .text raw
    else if t.closing then .leave t.name
    else if t.selfClosing || isChildless t.name then .single t.name t.attributes
    else .enter t.name t.attributes

def Lexeme.isAssetEnd : Lexeme → Bool
  | .tag _ t => t.closing && (isLoad t.name || isUnload t.name)
  | _ => false

def Event.Proper : Event → Prop
  | .enter name _ => isChildless name = false
  | _ => True

theorem Lexeme.proper_event (lexeme : Lexeme) : lexeme.event.Proper := by
  cases lexeme with
  | text data => exact trivial
  | comment data => exact trivial
  | code raw => exact trivial
  | tag raw t =>
    rw [Lexeme.event]
    split_ifs with h₁ h₂ h₃
    · exact trivial
    · exact trivial
    · exact trivial
    · rw [Bool.not_eq_true, Bool.or_eq_false_iff] at h₃
      exact h₃.2

mutual

def Node.events : Node → List Event
  | .text data => [.text data]
  | .comment data => [.comment data]
  | .code data => [.code data]
  | .element name attributes children =>
    if isChildless name then [.single name attributes]
    else .enter name attributes :: Node.eventsAll children ++ [.leave name]

def Node.eventsAll : List Node → List Event
  | [] => []
  | node :: nodes => Node.events node ++ Node.eventsAll nodes

end

theorem Node.eventsAll_append (a b : List Node) :
    eventsAll (a ++ b) = eventsAll a ++ eventsAll b := by
  induction a with
  | nil => rfl
  | cons node a ih => rw [List.cons_append, eventsAll, eventsAll, ih, List.append_assoc]

mutual

/-- No void element and no asset declaration has children. -/
def Node.Proper : Node → Prop
  | .element name _ children => (isChildless name = true → children = []) ∧ Node.ProperAll children
  | _ => True

def Node.ProperAll : List Node → Prop
  | [] => True
  | node :: nodes => Node.Proper node ∧ Node.ProperAll nodes

end

theorem Node.properAll_append {a b : List Node} (ha : ProperAll a) (hb : ProperAll b) :
    ProperAll (a ++ b) := by
  induction a with
  | nil => exact hb
  | cons node a ih => exact ⟨ha.1, ih ha.2⟩

namespace Builder

def perform (builder : Builder) : Event → Builder
  | .text data => builder.append (.text data)
  | .comment data => builder.append (.comment data)
  | .code data => builder.append (.code data)
  | .single name attributes => builder.append (.element name attributes [])
  | .enter name attributes => builder.enter name attributes
  | .leave name => builder.close name 0

def performAll (builder : Builder) (events : List Event) : Builder :=
  events.foldl perform builder

def quiet (builder : Builder) : Builder :=
  { builder with collect := false, diagnostics := [] }

section Quiet

variable (builder : Builder)

theorem quiet_append (node : Node) : (builder.append node).quiet = builder.quiet.append node := by
  unfold append quiet
  cases builder.path <;> rfl

theorem quiet_note (d : Diagnostic) : (builder.note d).quiet = builder.quiet := by
  unfold note
  split <;> rfl

theorem quiet_noteAll (ds : List Diagnostic) : (builder.noteAll ds).quiet = builder.quiet := by
  unfold noteAll
  induction ds generalizing builder with
  | nil => rfl
  | cons d ds ih => rw [List.foldl_cons, ih, quiet_note]

theorem quiet_leave : builder.leave.quiet = builder.quiet.leave := by
  unfold leave
  cases hp : builder.path with
  | nil => simp [quiet, hp]
  | cons inner outer =>
    rw [quiet_append]
    simp [quiet, hp]

theorem quiet_leaveTimes (n : Nat) : (leaveTimes n builder).quiet = leaveTimes n builder.quiet := by
  induction n generalizing builder with
  | zero => rfl
  | succ n ih => rw [leaveTimes, leaveTimes, ih, quiet_leave]

theorem noteAll_quiet (ds : List Diagnostic) : builder.quiet.noteAll ds = builder.quiet := by
  unfold noteAll
  induction ds with
  | nil => rfl
  | cons d ds ih => rw [List.foldl_cons]; exact ih

theorem close_quiet (name : Text) (position : Nat) :
    builder.quiet.close name position =
      match insideOf? name builder.path with
      | some skipped => leaveTimes (skipped.length + 1) builder.quiet
      | none => builder.quiet := by
  unfold close
  have hpath : builder.quiet.path = builder.path := rfl
  rw [hpath]
  cases insideOf? name builder.path with
  | none => rfl
  | some skipped =>
    dsimp only
    rw [noteAll_quiet]

theorem quiet_close (name : Text) (position other : Nat) :
    (builder.close name position).quiet = builder.quiet.close name other := by
  rw [close_quiet]
  unfold close
  cases insideOf? name builder.path with
  | none => exact quiet_note builder _
  | some skipped =>
    dsimp only
    rw [quiet_leaveTimes, quiet_noteAll]

end Quiet

/-- A token does to the tree what its event does. Closing tags of asset declarations are no events. -/
theorem quiet_add (builder : Builder) {token : Token}
    (h : token.lexeme.isAssetEnd = false) :
    (builder.add token).quiet = builder.quiet.perform token.lexeme.event := by
  unfold add
  cases hl : token.lexeme with
  | text data => exact quiet_append builder _
  | comment data => exact quiet_append builder _
  | code raw => exact quiet_append builder _
  | tag raw tag =>
    rw [hl, Lexeme.isAssetEnd] at h
    dsimp only
    rw [addTag, Lexeme.event]
    cases tag.name.isEmpty with
    | true => exact quiet_append builder _
    | false =>
      cases hc : tag.closing with
      | true =>
        rw [hc, Bool.true_and] at h
        rw [h]
        exact quiet_close builder _ _ _
      | false =>
        cases tag.selfClosing || isChildless tag.name with
        | true => exact quiet_append builder _
        | false => rfl

def names (builder : Builder) : List Text :=
  builder.path.map (·.name)

def written (builder : Builder) : List Event :=
  Node.eventsAll builder.roots ++
    builder.path.reverse.flatMap fun e => .enter e.name e.attributes :: Node.eventsAll e.children

structure Proper (builder : Builder) : Prop where
  roots : Node.ProperAll builder.roots
  path : ∀ e ∈ builder.path, isChildless e.name = false ∧ Node.ProperAll e.children

theorem proper_start (collect : Bool) : (start collect).Proper :=
  ⟨trivial, fun _ he => absurd he List.not_mem_nil⟩

theorem Proper.quiet {builder : Builder} (h : builder.Proper) : builder.quiet.Proper :=
  ⟨h.roots, h.path⟩

theorem Proper.append {builder : Builder} (h : builder.Proper) {node : Node} (hn : node.Proper) :
    (builder.append node).Proper := by
  obtain ⟨hroots, hpath⟩ := h
  unfold Builder.append
  cases hp : builder.path with
  | nil =>
    exact ⟨Node.properAll_append hroots ⟨hn, trivial⟩, fun e he => absurd he List.not_mem_nil⟩
  | cons inner outer =>
    rw [hp] at hpath
    refine ⟨hroots, fun e he => ?_⟩
    rcases List.mem_cons.1 he with rfl | he
    · obtain ⟨hc, hall⟩ := hpath inner List.mem_cons_self
      exact ⟨hc, Node.properAll_append hall ⟨hn, trivial⟩⟩
    · exact hpath e (List.mem_cons_of_mem inner he)

theorem Proper.leave {builder : Builder} (h : builder.Proper) : builder.leave.Proper := by
  unfold Builder.leave
  cases hp : builder.path with
  | nil => exact h
  | cons inner outer =>
    have hpath := h.path
    rw [hp] at hpath
    obtain ⟨hc, hall⟩ := hpath inner List.mem_cons_self
    have houter : Proper { builder with path := outer } :=
      ⟨h.roots, fun e he => hpath e (List.mem_cons_of_mem inner he)⟩
    refine houter.append ⟨fun hchild => ?_, hall⟩
    rw [hc] at hchild
    cases hchild

theorem Proper.leaveTimes {builder : Builder} (h : builder.Proper) (n : Nat) :
    (Builder.leaveTimes n builder).Proper := by
  induction n generalizing builder with
  | zero => exact h
  | succ n ih => exact ih h.leave

theorem Proper.document {builder : Builder} (h : builder.Proper) :
    Node.ProperAll builder.document :=
  (h.leaveTimes builder.path.length).roots

theorem written_append (builder : Builder) (node : Node) :
    (builder.append node).written = builder.written ++ node.events := by
  unfold append written
  cases hp : builder.path with
  | nil => simp [Node.eventsAll_append, Node.eventsAll]
  | cons inner outer => simp [Node.eventsAll_append, Node.eventsAll]

theorem names_append (builder : Builder) (node : Node) :
    (builder.append node).names = builder.names := by
  unfold append names
  cases builder.path with
  | nil => simp
  | cons inner outer => simp

theorem names_leave (builder : Builder) : builder.leave.names = builder.names.tail := by
  unfold leave
  cases hp : builder.path with
  | nil => simp [names, hp]
  | cons inner outer =>
    dsimp only
    rw [names_append]
    simp [names, hp]

theorem written_leave {builder : Builder} {name : Text} {rest : List Text}
    (h : builder.names = name :: rest) (hn : isChildless name = false) :
    builder.leave.written = builder.written ++ [.leave name] := by
  unfold names at h
  unfold leave
  cases hp : builder.path with
  | nil => simp [hp] at h
  | cons inner outer =>
    rw [hp, List.map_cons, List.cons.injEq] at h
    dsimp only
    rw [written_append, OpenElement.close, Node.events, if_neg (by rw [h.1, hn]; decide)]
    simp [written, hp, h.1]

theorem names_leaveTimes (n : Nat) (builder : Builder) :
    (leaveTimes n builder).names = builder.names.drop n := by
  induction n generalizing builder with
  | zero => rfl
  | succ n ih => rw [leaveTimes, ih, names_leave, List.drop_tail]

theorem written_leaveTimes {n : Nat} {builder : Builder} (h : n ≤ builder.names.length)
    (hp : builder.Proper) :
    (leaveTimes n builder).written = builder.written ++ (builder.names.take n).map .leave := by
  induction n generalizing builder with
  | zero => simp [leaveTimes]
  | succ n ih =>
    cases hn : builder.names with
    | nil => simp [hn] at h
    | cons name rest =>
      have hleave : builder.leave.names = rest := by rw [names_leave, hn, List.tail_cons]
      have hname : isChildless name = false := by
        obtain ⟨e, he, rfl⟩ := List.mem_map.1 (hn ▸ List.mem_cons_self : name ∈ builder.names)
        exact (hp.path e he).1
      rw [Builder.leaveTimes, ih ?_ hp.leave, written_leave hn hname, hleave]
      · simp
      · rw [hleave]
        rw [hn, List.length_cons] at h
        omega

end Builder

def closed? (name : Text) : List Text → Option (List Text × List Text)
  | [] => none
  | inner :: outer =>
    if Text.lower inner = Text.lower name then some ([inner], outer)
    else (closed? name outer).map fun (closed, rest) => (inner :: closed, rest)

namespace Event

def linear (names : List Text) : Event → List Event
  | single name attributes =>
    if isChildless name then [single name attributes] else [enter name attributes, leave name]
  | leave name =>
    match closed? name names with
    | some (closed, _) => closed.map leave
    | none => []
  | event => [event]

def after (names : List Text) : Event → List Text
  | enter name _ => name :: names
  | leave name =>
    match closed? name names with
    | some (_, rest) => rest
    | none => names
  | _ => names

/-- The linear form that events have when the ends that were left out are put in. -/
def linearAll (names : List Text) : List Event → List Event
  | [] => names.map leave
  | event :: events => event.linear names ++ linearAll (event.after names) events

end Event

namespace Builder

theorem closed?_names (builder : Builder) (name : Text) :
    closed? name builder.names =
      (insideOf? name builder.path).map fun skipped =>
        (builder.names.take (skipped.length + 1), builder.names.drop (skipped.length + 1)) := by
  unfold names
  induction builder.path with
  | nil => rfl
  | cons inner outer ih =>
    rw [List.map_cons, closed?, insideOf?]
    split
    · rfl
    · rw [ih, Option.map_map, Option.map_map]
      rfl

theorem length_le_of_insideOf? {name : Text} {path skipped : List OpenElement}
    (h : insideOf? name path = some skipped) : skipped.length + 1 ≤ path.length := by
  induction path generalizing skipped with
  | nil => cases h
  | cons inner outer ih =>
    rw [insideOf?] at h
    split at h
    · cases h
      simp
    · obtain ⟨t, ht, rfl⟩ := Option.map_eq_some_iff.1 h
      have := ih ht
      simp only [List.length_cons]
      omega

theorem names_perform (builder : Builder) (event : Event) :
    (builder.quiet.perform event).names = event.after builder.names := by
  cases event with
  | text data => exact names_append builder.quiet _
  | comment data => exact names_append builder.quiet _
  | code data => exact names_append builder.quiet _
  | single name attributes => exact names_append builder.quiet _
  | enter name attributes => rfl
  | leave name =>
    rw [perform, close_quiet, Event.after, closed?_names]
    cases insideOf? name builder.path with
    | none => rfl
    | some skipped => exact names_leaveTimes _ _

theorem written_perform {builder : Builder} (hp : builder.Proper) (event : Event) :
    (builder.quiet.perform event).written = builder.written ++ event.linear builder.names := by
  cases event with
  | text data => exact written_append builder.quiet _
  | comment data => exact written_append builder.quiet _
  | code data => exact written_append builder.quiet _
  | single name attributes =>
    refine (written_append builder.quiet _).trans ?_
    rw [Node.events, Event.linear]
    rfl
  | enter name attributes =>
    simp [perform, enter, written, quiet, Event.linear, Node.eventsAll]
  | leave name =>
    rw [perform, close_quiet, Event.linear, closed?_names]
    cases hi : insideOf? name builder.path with
    | none => simp [written, quiet]
    | some skipped =>
      refine written_leaveTimes ?_ hp.quiet
      rw [names, List.length_map]
      exact length_le_of_insideOf? hi

theorem eventsAll_document {builder : Builder} (hp : builder.Proper) :
    Node.eventsAll builder.document = builder.written ++ builder.names.map .leave := by
  have hlen : builder.path.length = builder.names.length := by rw [names, List.length_map]
  have hw := written_leaveTimes (n := builder.path.length) (Nat.le_of_eq hlen) hp
  rw [hlen, List.take_length] at hw
  rw [← hw, document, written, hlen]
  have hpath : (leaveTimes builder.names.length builder).path = [] := by
    have := names_leaveTimes builder.names.length builder
    rw [List.drop_length, names, List.map_eq_nil_iff] at this
    exact this
  rw [hpath]
  simp

theorem quiet_perform (builder : Builder) (event : Event) :
    (builder.quiet.perform event).quiet = builder.quiet.perform event := by
  cases event with
  | text data => exact quiet_append builder.quiet _
  | comment data => exact quiet_append builder.quiet _
  | code data => exact quiet_append builder.quiet _
  | single name attributes => exact quiet_append builder.quiet _
  | enter name attributes => rfl
  | leave name => exact quiet_close builder.quiet name 0 0

theorem Proper.perform {builder : Builder} (h : builder.Proper) {event : Event}
    (he : event.Proper) : (builder.quiet.perform event).Proper := by
  have hquiet := h.quiet
  cases event with
  | text data => exact hquiet.append trivial
  | comment data => exact hquiet.append trivial
  | code data => exact hquiet.append trivial
  | single name attributes => exact hquiet.append ⟨fun _ => rfl, trivial⟩
  | enter name attributes =>
    refine ⟨h.roots, fun e hm => ?_⟩
    rcases List.mem_cons.1 hm with rfl | hm
    · exact ⟨he, trivial⟩
    · exact h.path e hm
  | leave name =>
    rw [Builder.perform, close_quiet]
    cases insideOf? name builder.path with
    | none => exact hquiet
    | some skipped => exact hquiet.leaveTimes _

theorem eventsAll_performAll {events : List Event} {builder : Builder} (hp : builder.Proper)
    (he : ∀ event ∈ events, event.Proper) :
    Node.eventsAll (builder.quiet.performAll events).document =
      builder.written ++ Event.linearAll builder.names events := by
  induction events generalizing builder with
  | nil => exact eventsAll_document hp.quiet
  | cons event events ih =>
    have hnext := ih (hp.perform (he event List.mem_cons_self))
      fun e hm => he e (List.mem_cons_of_mem event hm)
    rw [quiet_perform, written_perform hp, names_perform] at hnext
    rw [performAll, List.foldl_cons, ← performAll, hnext, Event.linearAll, List.append_assoc]

theorem Proper.performAll {events : List Event} {builder : Builder} (h : builder.Proper)
    (he : ∀ event ∈ events, event.Proper) : (builder.quiet.performAll events).Proper := by
  induction events generalizing builder with
  | nil => exact h.quiet
  | cons event events ih =>
    have hnext := ih (h.perform (he event List.mem_cons_self))
      fun e hm => he e (List.mem_cons_of_mem event hm)
    rw [quiet_perform] at hnext
    exact hnext

theorem quiet_addAll {tokens : List Token} (builder : Builder)
    (h : ∀ token ∈ tokens, token.lexeme.isAssetEnd = false) :
    (builder.addAll tokens).quiet =
      builder.quiet.performAll (tokens.map (·.lexeme.event)) := by
  induction tokens generalizing builder with
  | nil => rfl
  | cons token tokens ih =>
    rw [addAll, List.foldl_cons, ← addAll, ih _ fun t ht => h t (List.mem_cons_of_mem token ht),
      quiet_add builder (h token List.mem_cons_self)]
    rfl

theorem roots_finish (builder : Builder) : builder.finish.roots = builder.quiet.document := by
  have h : builder.finish.quiet = leaveTimes builder.path.length builder.quiet := by
    rw [finish, quiet_leaveTimes, quiet_noteAll]
  change builder.finish.quiet.roots = _
  rw [h]
  rfl

def Notes (builder other : Builder) : Prop :=
  other.collect = builder.collect ∧ builder.diagnostics <+: other.diagnostics

theorem Notes.trans {a b c : Builder} (h : a.Notes b) (h' : b.Notes c) : a.Notes c :=
  ⟨h'.1.trans h.1, h.2.trans h'.2⟩

theorem notes_note (builder : Builder) (d : Diagnostic) : builder.Notes (builder.note d) := by
  unfold note
  split
  · exact ⟨rfl, List.prefix_append _ _⟩
  · exact ⟨rfl, List.prefix_rfl⟩

theorem notes_noteAll (builder : Builder) (ds : List Diagnostic) :
    builder.Notes (builder.noteAll ds) := by
  unfold noteAll
  induction ds generalizing builder with
  | nil => exact ⟨rfl, List.prefix_rfl⟩
  | cons d ds ih => exact (notes_note builder d).trans (ih _)

theorem noteAll_eq (builder : Builder) (ds : List Diagnostic) :
    builder.noteAll ds =
      if builder.collect then { builder with diagnostics := builder.diagnostics ++ ds }
      else builder := by
  unfold noteAll
  induction ds generalizing builder with
  | nil => simp
  | cons d ds ih =>
    rw [List.foldl_cons, ih]
    cases hc : builder.collect <;> simp [note, hc]

theorem notes_append (builder : Builder) (node : Node) : builder.Notes (builder.append node) := by
  unfold append
  cases builder.path <;> exact ⟨rfl, List.prefix_rfl⟩

theorem notes_leave (builder : Builder) : builder.Notes builder.leave := by
  unfold leave
  cases builder.path with
  | nil => exact ⟨rfl, List.prefix_rfl⟩
  | cons inner outer => exact notes_append { builder with path := outer } _

theorem notes_leaveTimes (n : Nat) (builder : Builder) : builder.Notes (leaveTimes n builder) := by
  induction n generalizing builder with
  | zero => exact ⟨rfl, List.prefix_rfl⟩
  | succ n ih => exact (notes_leave builder).trans (ih _)

theorem diagnostics_append (builder : Builder) (node : Node) :
    (builder.append node).diagnostics = builder.diagnostics := by
  unfold append
  split <;> rfl

theorem diagnostics_leaveTimes (n : Nat) (builder : Builder) :
    (leaveTimes n builder).diagnostics = builder.diagnostics := by
  induction n generalizing builder with
  | zero => rfl
  | succ n ih =>
    have hleave : builder.leave.diagnostics = builder.diagnostics := by
      unfold leave
      split
      · rfl
      · exact diagnostics_append _ _
    exact (ih builder.leave).trans hleave

theorem notes_close (builder : Builder) (name : Text) (position : Nat) :
    builder.Notes (builder.close name position) := by
  unfold close
  cases insideOf? name builder.path with
  | none => exact notes_note builder _
  | some skipped => exact (notes_noteAll builder _).trans (notes_leaveTimes _ _)

theorem notes_add (builder : Builder) (token : Token) : builder.Notes (builder.add token) := by
  unfold add
  cases token.lexeme with
  | text data => exact notes_append builder _
  | comment data => exact notes_append builder _
  | code raw => exact notes_append builder _
  | tag raw tag =>
    dsimp only
    unfold addTag
    split_ifs
    · exact notes_append builder _
    · exact ⟨rfl, List.prefix_rfl⟩
    · exact notes_close builder _ _
    · exact notes_append builder _
    · exact ⟨rfl, List.prefix_rfl⟩

theorem notes_addAll (builder : Builder) (tokens : List Token) :
    builder.Notes (builder.addAll tokens) := by
  induction tokens generalizing builder with
  | nil => exact ⟨rfl, List.prefix_rfl⟩
  | cons token tokens ih => exact (notes_add builder token).trans (ih _)

theorem notes_finish (builder : Builder) : builder.Notes builder.finish :=
  (notes_noteAll builder _).trans (notes_leaveTimes _ _)

theorem mem_diagnostics_add {builder : Builder} (hc : builder.collect = true) {token : Token}
    (ha : token.lexeme.isAssetEnd = false) {name : Text} (he : token.lexeme.event = .leave name)
    (hn : closed? name builder.names = none) :
    unexpectedEndTag token.position name ∈ (builder.add token).diagnostics := by
  rw [closed?_names, Option.map_eq_none_iff] at hn
  unfold add
  cases hl : token.lexeme with
  | text data => rw [hl] at he; cases he
  | comment data => rw [hl] at he; cases he
  | code raw => rw [hl] at he; cases he
  | tag raw tag =>
    rw [hl, Lexeme.event] at he
    rw [hl, Lexeme.isAssetEnd] at ha
    dsimp only
    unfold addTag
    split_ifs at he with h₁ h₂ h₃
    cases he
    rw [h₂, Bool.true_and] at ha
    rw [if_neg h₁, if_pos h₂, ha, if_neg Bool.false_ne_true, close, hn]
    simp [note, hc]

end Builder

namespace Event

def Matched (names : List Text) : List Event → Prop
  | [] => True
  | event :: events =>
    (∀ name, event = leave name → closed? name names ≠ none) ∧ Matched (event.after names) events

end Event

theorem matched_of_diagnostics {tokens : List Token} {builder : Builder}
    (hc : builder.collect = true) (ha : ∀ token ∈ tokens, token.lexeme.isAssetEnd = false)
    (h : ∀ d ∈ (builder.addAll tokens).finish.diagnostics,
      d.code ≠ "unexpected-end-tag".toList) :
    Event.Matched builder.names (tokens.map (·.lexeme.event)) := by
  induction tokens generalizing builder with
  | nil => exact trivial
  | cons token tokens ih =>
    have hadd := Builder.notes_add builder token
    have hquiet := Builder.quiet_add builder (ha token List.mem_cons_self)
    refine ⟨fun name he hn => ?_, ?_⟩
    · have hmem := Builder.mem_diagnostics_add hc (ha token List.mem_cons_self) he hn
      have hall : (builder.add token).Notes ((builder.add token).addAll tokens).finish :=
        (Builder.notes_addAll _ _).trans (Builder.notes_finish _)
      exact h _ (hall.2.mem hmem) rfl
    · have hnames : (builder.add token).names = token.lexeme.event.after builder.names := by
        rw [← Builder.names_perform, ← hquiet]
        rfl
      change Event.Matched (token.lexeme.event.after builder.names) _
      rw [← hnames]
      exact ih (hadd.1.trans hc) (fun t ht => ha t (List.mem_cons_of_mem token ht)) h

theorem documentOf_eq {tokens : List Token}
    (h : ∀ token ∈ tokens, token.lexeme.isAssetEnd = false) :
    documentOf tokens =
      ((Builder.start false).performAll (tokens.map (·.lexeme.event))).document := by
  rw [documentOf, build, Builder.roots_finish, Builder.quiet_addAll _ h]
  rfl

namespace Builder

def appendAll (builder : Builder) (nodes : List Node) : Builder :=
  nodes.foldl append builder

theorem appendAll_cons_path {builder : Builder} {inner : OpenElement} {outer : List OpenElement}
    (h : builder.path = inner :: outer) (nodes : List Node) :
    builder.appendAll nodes =
      { builder with path := { inner with children := inner.children ++ nodes } :: outer } := by
  induction nodes generalizing builder inner with
  | nil => simp [appendAll, ← h]
  | cons node nodes ih =>
    have hpath : (builder.append node).path =
        { inner with children := inner.children ++ [node] } :: outer := by
      simp [append, h]
    rw [appendAll, List.foldl_cons, ← appendAll, ih hpath]
    simp [append, h]

theorem performAll_append (builder : Builder) (a b : List Event) :
    builder.performAll (a ++ b) = (builder.performAll a).performAll b :=
  List.foldl_append

mutual

/-- The linear form of a tree builds the tree. -/
theorem performAll_events (builder : Builder) : ∀ node : Node, node.Proper →
    builder.performAll node.events = builder.append node
  | .text data, _ => rfl
  | .comment data, _ => rfl
  | .code data, _ => rfl
  | .element name attributes children, h => by
    obtain ⟨hleaf, hall⟩ := h
    rw [Node.events]
    split
    · next hc => rw [hleaf hc]; rfl
    · have hentered : (builder.enter name attributes).performAll (Node.eventsAll children) =
          (builder.enter name attributes).appendAll children :=
        performAll_eventsAll _ children hall
      rw [performAll_append, performAll, List.foldl_cons, ← performAll]
      change ((builder.enter name attributes).performAll (Node.eventsAll children)).performAll
        [.leave name] = builder.append (.element name attributes children)
      rw [hentered, appendAll_cons_path rfl]
      simp [performAll, perform, close, insideOf?, noteAll, leaveTimes, leave, enter,
        OpenElement.close]

theorem performAll_eventsAll (builder : Builder) : ∀ nodes : List Node, Node.ProperAll nodes →
    builder.performAll (Node.eventsAll nodes) = builder.appendAll nodes
  | [], _ => rfl
  | node :: nodes, h => by
    rw [Node.eventsAll, performAll_append, performAll_events builder node h.1,
      performAll_eventsAll _ nodes h.2]
    rfl

end

theorem appendAll_nil_path {builder : Builder} (h : builder.path = []) (nodes : List Node) :
    builder.appendAll nodes = { builder with roots := builder.roots ++ nodes } := by
  induction nodes generalizing builder with
  | nil => simp [appendAll]
  | cons node nodes ih =>
    have hpath : (builder.append node).path = [] := by simp [append, h]
    rw [appendAll, List.foldl_cons, ← appendAll, ih hpath]
    simp [append, h]

theorem document_eventsAll {nodes : List Node} (h : Node.ProperAll nodes) :
    ((start false).performAll (Node.eventsAll nodes)).document = nodes := by
  rw [performAll_eventsAll _ nodes h, appendAll_nil_path rfl]
  rfl

end Builder

end MarkupTemplate
