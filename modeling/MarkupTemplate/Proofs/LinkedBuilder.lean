import MarkupTemplate.Proofs.OpenPath
import MarkupTemplate.Proofs.Ownership

/-!
# Building with a stack beside the tree

A builder keeps its open elements apart from the tree and puts each into the tree when it is closed, so
the two cannot disagree. A linked builder appends every node to its parent at once, in an arena, and
keeps a stack of the nodes that are open beside the tree; there they could. They do not, since it goes
through the same states: its arena holds the tree of the builder, its stack the open elements, and each
of these is the last child of the one below it.
-/

namespace MarkupTemplate

/-- The stack holds the open nodes, innermost first, with the document at its end. -/
structure LinkedBuilder where
  collect : Bool
  arena : Arena
  stack : List Nat
  diagnostics : List Diagnostic

namespace LinkedBuilder

def start (collect : Bool) : LinkedBuilder :=
  ⟨collect, (Arena.empty.new .document).1, [0], []⟩

def noteAll (linked : LinkedBuilder) (ds : List Diagnostic) : LinkedBuilder :=
  if linked.collect then { linked with diagnostics := linked.diagnostics ++ ds } else linked

def attach (linked : LinkedBuilder) (label : Node.Label) : LinkedBuilder × Option Nat :=
  match linked.arena.new (.node label) with
  | (arena, .ok id) =>
    ({ linked with arena := (arena.append (linked.stack.headD 0) id).1 }, some id)
  | (arena, .error _) => ({ linked with arena }, none)

def enter (linked : LinkedBuilder) (name : Text) (attributes : Attributes) : LinkedBuilder :=
  let (linked, id?) := linked.attach (.element name attributes)
  { linked with stack := id?.toList ++ linked.stack }

def leaveTimes (linked : LinkedBuilder) (count : Nat) : LinkedBuilder :=
  { linked with stack := linked.stack.drop count }

def insideOf? (arena : Arena) (name : Text) : List Nat → Option (List Nat)
  | [] => none
  | id :: stack =>
    if Text.lower (arena.name id) = Text.lower name then some []
    else (insideOf? arena name stack).map (id :: ·)

def close (linked : LinkedBuilder) (name : Text) (position : Nat) : LinkedBuilder :=
  match insideOf? linked.arena name linked.stack.dropLast with
  | some skipped =>
    (linked.noteAll (skipped.reverse.map fun id =>
      Builder.closedByTag position name (linked.arena.name id))).leaveTimes (skipped.length + 1)
  | none => linked.noteAll [Builder.unexpectedEndTag position name]

def addTag (linked : LinkedBuilder) (raw : Text) (tag : Tag) (position : Nat) : LinkedBuilder :=
  if tag.name.isEmpty then (linked.attach (.text raw)).1
  else if tag.closing then
    if isLoad tag.name || isUnload tag.name then linked else linked.close tag.name position
  else if tag.selfClosing || isChildless tag.name then
    (linked.attach (.element tag.name tag.attributes)).1
  else linked.enter tag.name tag.attributes

def add (linked : LinkedBuilder) (token : Token) : LinkedBuilder :=
  match token.lexeme with
  | .text data => (linked.attach (.text data)).1
  | .comment data => (linked.attach (.comment data)).1
  | .code raw => (linked.attach (.code raw)).1
  | .tag raw tag => linked.addTag raw tag token.position

def finish (linked : LinkedBuilder) : LinkedBuilder :=
  (linked.noteAll (linked.stack.dropLast.reverse.map fun id =>
    Builder.closedByEnd (linked.arena.name id))).leaveTimes (linked.stack.length - 1)

def act (linked : LinkedBuilder) : Builder.Action → LinkedBuilder
  | .add token => linked.add token
  | .finish => linked.finish

def run (linked : LinkedBuilder) (actions : List Builder.Action) : LinkedBuilder :=
  actions.foldl act linked

end LinkedBuilder

namespace Arena

/-- The cells from `first` up to `next` hold the trees `nodes`, one after another and each in document
order; `ids` are their roots. -/
inductive HoldsTrees (arena : Arena) : List Node → List Nat → Nat → Nat → Prop
  | nil (first : Nat) : HoldsTrees arena [] [] first first
  | cons {node : Node} {nodes : List Node} {ids : List Nat} {first middle next : Nat}
      (hcontent : arena.content? first = some (.node node.label))
      (hchildren : HoldsTrees arena node.children (arena.children first) (first + 1) middle)
      (hrest : HoldsTrees arena nodes ids middle next) :
      HoldsTrees arena (node :: nodes) (first :: ids) first next

/-- The cells before `next` hold a document with `roots` in it and the open elements `path`, whose cells
are on the stack. The children of the innermost are the closed ones and `below`. -/
inductive HoldsPath (arena : Arena) (roots : List Node) :
    List OpenElement → List Nat → Nat → List Nat → Prop
  | document {ids below : List Nat} {next : Nat} (hcontent : arena.content? 0 = some .document)
      (hchildren : arena.children 0 = ids ++ below) (hroots : HoldsTrees arena roots ids 1 next) :
      HoldsPath arena roots [] [0] next below
  | element {e : OpenElement} {path : List OpenElement} {id : Nat} {stack ids below : List Nat}
      {next : Nat} (hcontent : arena.content? id = some (.node e.label))
      (hchildren : arena.children id = ids ++ below)
      (hinner : HoldsTrees arena e.children ids (id + 1) next)
      (houter : HoldsPath arena roots path stack id [id]) :
      HoldsPath arena roots (e :: path) (id :: stack) next below

variable {arena after : Arena} {nodes more roots : List Node} {ids below stack : List Nat}
  {path : List OpenElement} {first middle next : Nat}

namespace HoldsTrees

theorem le (h : HoldsTrees arena nodes ids first next) : first ≤ next := by
  induction h with
  | nil first => exact Nat.le_refl first
  | cons _ _ _ ihChildren ihRest => omega

theorem append {others : List Nat} (h : HoldsTrees arena nodes ids first middle)
    (hmore : HoldsTrees arena more others middle next) :
    HoldsTrees arena (nodes ++ more) (ids ++ others) first next := by
  induction h with
  | nil first => exact hmore
  | cons hcontent hchildren _ _ ih => exact .cons hcontent hchildren (ih hmore)

theorem frame (h : HoldsTrees arena nodes ids first next)
    (hcontent : ∀ id, first ≤ id → id < next → after.content? id = arena.content? id)
    (hchildren : ∀ id, first ≤ id → id < next → after.children id = arena.children id) :
    HoldsTrees after nodes ids first next := by
  induction h with
  | nil first => exact .nil first
  | cons hfirst hbelow hrest ihChildren ihRest =>
    have hmiddle := hbelow.le
    have hnext := hrest.le
    have hbelow' := ihChildren (fun id h1 h2 => hcontent id (by omega) (by omega))
      fun id h1 h2 => hchildren id (by omega) (by omega)
    have hrest' := ihRest (fun id h1 h2 => hcontent id (by omega) (by omega))
      fun id h1 h2 => hchildren id (by omega) (by omega)
    rw [← hchildren _ (Nat.le_refl _) (by omega)] at hbelow'
    exact .cons ((hcontent _ (Nat.le_refl _) (by omega)).trans hfirst) hbelow' hrest'

theorem flatMap_nodesAt (h : HoldsTrees arena nodes ids first next) {depth : Nat}
    (hdepth : next ≤ first + depth) : ids.flatMap (arena.nodesAt false depth) = nodes := by
  induction h generalizing depth with
  | nil first => rfl
  | @cons node nodes ids first middle next hcontent hchildren hrest ihChildren ihRest =>
    have hmiddle := hchildren.le
    have hnext := hrest.le
    obtain ⟨cell, hcell, hlabel⟩ := Option.map_eq_some_iff.1 hcontent
    have hcells : arena.children first = cell.children := by simp [children, hcell]
    obtain ⟨depth, rfl⟩ : ∃ k, depth = k + 1 := ⟨depth - 1, by omega⟩
    have hbelow : cell.children.flatMap (arena.nodesAt false depth) = node.children := by
      rw [← hcells]
      exact ihChildren (by omega)
    rw [List.flatMap_cons, ihRest (by omega), nodesAt, hcell]
    dsimp only
    rw [hlabel, hbelow]
    cases node <;> rfl

end HoldsTrees

namespace HoldsPath

theorem frame (h : HoldsPath arena roots path stack next below)
    (hcontent : ∀ id, id < next → after.content? id = arena.content? id)
    (hchildren : ∀ id, id < next → after.children id = arena.children id) :
    HoldsPath after roots path stack next below := by
  induction h with
  | document hzero hbelow hroots =>
    have hpos := hroots.le
    refine .document ((hcontent 0 hpos).trans hzero) ((hchildren 0 hpos).trans hbelow) ?_
    exact hroots.frame (fun id _ h => hcontent id h) fun id _ h => hchildren id h
  | element hid hbelow hinner _ ih =>
    have hlt := hinner.le
    refine .element ((hcontent _ hlt).trans hid) ((hchildren _ hlt).trans hbelow) ?_ ?_
    · exact hinner.frame (fun id _ h => hcontent id h) fun id _ h => hchildren id h
    · exact ih (fun id h => hcontent id (by omega)) fun id h => hchildren id (by omega)

theorem link {child : Nat} (h : HoldsPath arena roots path stack next [])
    (happends : Appends arena ⟨stack.headD 0, child⟩ after) :
    HoldsPath after roots path stack next [child] := by
  -- only the list of the innermost open node changes
  have hparent : ∀ {ids : List Nat}, arena.children (stack.headD 0) = ids ++ [] →
      after.children (stack.headD 0) = ids ++ [child] := by
    intro ids hids
    rw [happends.children, if_pos rfl, hids, List.append_nil]
  have hothers : ∀ id, id ≠ stack.headD 0 → after.children id = arena.children id := by
    intro id hid
    rw [happends.children, if_neg hid]
  cases h with
  | document hcontent hchildren hroots =>
    have hroots' := hroots.frame (fun id _ _ => happends.content? id)
      fun id h _ => hothers id (Nat.ne_of_gt h)
    exact .document ((happends.content? 0).trans hcontent) (hparent hchildren) hroots'
  | element hcontent hchildren hinner houter =>
    have hinner' := hinner.frame (fun id _ _ => happends.content? id)
      fun id h _ => hothers id (Nat.ne_of_gt h)
    have houter' := houter.frame (fun id _ => happends.content? id)
      fun id h => hothers id (Nat.ne_of_lt h)
    exact .element ((happends.content? _).trans hcontent) (hparent hchildren) hinner' houter'

theorem concat (h : HoldsPath arena roots path stack arena.cells.length below) (cell : Cell) :
    HoldsPath ⟨arena.cells ++ [cell]⟩ roots path stack arena.cells.length below := by
  have hold : ∀ id, id < arena.cells.length → cell? ⟨arena.cells ++ [cell]⟩ id = arena.cell? id :=
    fun id hid => List.getElem?_append_left hid
  exact h.frame (fun id hid => by rw [content?, content?, hold id hid])
    fun id hid => by rw [children, children, hold id hid]

theorem absorb {builder : Builder} {node : Node}
    (h : HoldsPath arena builder.roots builder.path stack first [first])
    (hnode : HoldsTrees arena [node] [first] first next) :
    HoldsPath arena (builder.append node).roots (builder.append node).path stack next [] := by
  unfold Builder.append
  cases hp : builder.path with
  | nil =>
    rw [hp] at h
    cases h with
    | document hcontent hchildren hroots =>
      exact .document hcontent (by rw [hchildren, List.append_nil]) (hroots.append hnode)
  | cons inner outer =>
    rw [hp] at h
    cases h with
    | element hcontent hchildren hinner houter =>
      exact .element hcontent (by rw [hchildren, List.append_nil]) (hinner.append hnode) houter

theorem leave {builder : Builder} (h : HoldsPath arena builder.roots builder.path stack next [])
    (hopen : builder.path ≠ []) :
    HoldsPath arena builder.leave.roots builder.leave.path stack.tail next [] := by
  unfold Builder.leave
  cases hp : builder.path with
  | nil => exact absurd hp hopen
  | cons inner outer =>
    rw [hp] at h
    cases h with
    | @element _ _ id stack ids _ _ hcontent hchildren hinner houter =>
      rw [List.append_nil] at hchildren
      have hnode : HoldsTrees arena [inner.close] [id] id next :=
        .cons hcontent (hchildren ▸ hinner) (.nil next)
      let around : Builder := { builder with path := outer }
      have houter : HoldsPath arena around.roots around.path stack id [id] := houter
      exact houter.absorb hnode

theorem leaveTimes {builder : Builder} (h : HoldsPath arena builder.roots builder.path stack next [])
    {count : Nat} (hcount : count ≤ builder.path.length) :
    HoldsPath arena (Builder.leaveTimes count builder).roots (Builder.leaveTimes count builder).path
      (stack.drop count) next [] := by
  induction count generalizing builder stack with
  | zero => exact h
  | succ count ih =>
    have hopen : builder.path ≠ [] := by
      rintro hnil
      simp [hnil] at hcount
    have hlength : builder.leave.path.length = builder.path.length - 1 := by
      have hnames := congrArg List.length (Builder.names_leave builder)
      simpa [Builder.names] using hnames
    have hrest := ih (h.leave hopen) (by omega)
    rwa [List.drop_tail] at hrest

theorem names (h : HoldsPath arena roots path stack next below) :
    stack.map arena.name = path.map (·.name) ++ ["#document".toList] := by
  induction h with
  | document hcontent _ _ =>
    rw [List.map_singleton, name_of_content? hcontent]
    rfl
  | @element e path id stack _ _ _ hcontent _ _ _ ih =>
    have hname : arena.name id = e.name := name_of_content? hcontent
    rw [List.map_cons, ih, hname, List.map_cons, List.cons_append]

theorem names_dropLast (h : HoldsPath arena roots path stack next below) :
    stack.dropLast.map arena.name = path.map (·.name) := by
  rw [List.map_dropLast, h.names, List.dropLast_concat]

theorem getLast? (h : HoldsPath arena roots path stack next below) : stack.getLast? = some 0 := by
  induction h with
  | document _ _ _ => rfl
  | element _ _ _ houter ih => rw [List.getLast?_cons, ih, Option.getD_some]

theorem content?_zero (h : HoldsPath arena roots path stack next below) :
    arena.content? 0 = some .document := by
  induction h with
  | document hcontent _ _ => exact hcontent
  | element _ _ _ _ ih => exact ih

theorem isChain (h : HoldsPath arena roots path stack next below) :
    stack.IsChain fun upper lower => (arena.children lower).getLast? = some upper := by
  induction h with
  | document _ _ _ => exact .singleton 0
  | element _ _ _ houter ih =>
    cases houter with
    | document _ hchildren _ => exact .cons_cons (by simp [hchildren]) ih
    | element _ hchildren _ _ => exact .cons_cons (by simp [hchildren]) ih

theorem head_lt (h : HoldsPath arena roots path stack next below) : stack.headD 0 < next := by
  cases h with
  | document _ _ hroots => exact hroots.le
  | element _ _ hinner _ => exact hinner.le

theorem holds_head (h : HoldsPath arena roots path stack next below) :
    arena.Holds (stack.headD 0) := by
  cases h with
  | document hcontent _ _ => exact holds_of_content? hcontent
  | element hcontent _ _ _ => exact holds_of_content? hcontent

theorem isLeaf_head (h : HoldsPath arena roots path stack next below) :
    arena.isLeaf (stack.headD 0) = false := by
  cases h with
  | document hcontent _ _ => simp [isLeaf, hcontent, Content.isLeaf]
  | element hcontent _ _ _ => simp [isLeaf, hcontent, OpenElement.label, Content.isLeaf]

end HoldsPath

end Arena

namespace LinkedBuilder

variable {builder : Builder} {linked : LinkedBuilder}

structure Mirrors (builder : Builder) (linked : LinkedBuilder) : Prop where
  collect : linked.collect = builder.collect
  diagnostics : linked.diagnostics = builder.diagnostics
  path : linked.arena.HoldsPath builder.roots builder.path linked.stack linked.arena.cells.length []

structure Attached (linked : LinkedBuilder) (builder : Builder) (label : Node.Label) (arena : Arena) :
    Prop where
  length : arena.cells.length = linked.arena.cells.length + 1
  content : arena.content? linked.arena.cells.length = some (.node label)
  children : arena.children linked.arena.cells.length = []
  path : arena.HoldsPath builder.roots builder.path linked.stack linked.arena.cells.length
    [linked.arena.cells.length]

theorem mirrors_start (collect : Bool) : Mirrors (Builder.start collect) (start collect) where
  collect := rfl
  diagnostics := rfl
  path := .document rfl rfl (.nil 1)

theorem Mirrors.noteAll (h : Mirrors builder linked) (ds : List Diagnostic) :
    Mirrors (builder.noteAll ds) (linked.noteAll ds) := by
  rw [Builder.noteAll_eq, LinkedBuilder.noteAll, h.collect]
  split
  · exact ⟨rfl, congrArg (· ++ ds) h.diagnostics, h.path⟩
  · exact h

theorem Mirrors.attach (h : Mirrors builder linked) {label : Node.Label} (hname : label.name ≠ []) :
    ∃ arena, linked.attach label = ({ linked with arena }, some linked.arena.cells.length) ∧
      Attached linked builder label arena := by
  let grown : Arena := ⟨linked.arena.cells ++ [⟨.node label, [], none⟩]⟩
  let call : Arena.Call := ⟨linked.stack.headD 0, linked.arena.cells.length⟩
  have hnew : linked.arena.new (.node label) = (grown, .ok linked.arena.cells.length) :=
    Arena.new_of_name hname
  have hcell : grown.cell? linked.arena.cells.length = some ⟨.node label, [], none⟩ :=
    List.getElem?_concat_length
  have hpath : grown.HoldsPath builder.roots builder.path linked.stack linked.arena.cells.length [] :=
    h.path.concat _
  have hchild : grown.Holds call.child := by rw [Arena.Holds, hcell]; rfl
  have howner : grown.parent? call.child = none := by rw [Arena.parent?, hcell]; rfl
  have happends := Arena.appends_attempt hpath.holds_head hchild hpath.isLeaf_head howner
  refine ⟨grown.attempt call, ?_, ?_, ?_, ?_, hpath.link happends⟩
  · rw [LinkedBuilder.attach, hnew]
    rfl
  · rw [Arena.length_attempt, List.length_append]
    rfl
  · rw [happends.content?, Arena.content?, hcell]
    rfl
  · rw [happends.children, if_neg hpath.head_lt.ne', Arena.children, hcell]
    rfl

theorem Mirrors.append (h : Mirrors builder linked) (node : Node) (hname : node.label.name ≠ [])
    (hnode : node.children = []) :
    Mirrors (builder.append node) (linked.attach node.label).1 := by
  obtain ⟨arena, hattach, hlength, hcontent, hchildren, hpath⟩ := h.attach hname
  have hlast : arena.HoldsTrees [node] [linked.arena.cells.length] linked.arena.cells.length
      arena.cells.length := by
    refine .cons hcontent ?_ (.nil _)
    rw [hnode, hchildren, hlength]
    exact .nil _
  rw [hattach]
  exact ⟨h.collect.trans (Builder.notes_append builder node).1.symm,
    h.diagnostics.trans (Builder.diagnostics_append builder node).symm, hpath.absorb hlast⟩

theorem Mirrors.enter (h : Mirrors builder linked) {name : Text} (hname : name ≠ [])
    (attributes : Attributes) :
    Mirrors (builder.enter name attributes) (linked.enter name attributes) := by
  have hlabel : (Node.Label.element name attributes).name ≠ [] := hname
  obtain ⟨arena, hattach, hlength, hcontent, hchildren, hpath⟩ := h.attach hlabel
  have hinner : arena.HoldsTrees [] [] (linked.arena.cells.length + 1) arena.cells.length := by
    rw [hlength]
    exact .nil _
  rw [LinkedBuilder.enter, hattach]
  exact ⟨h.collect, h.diagnostics, .element hcontent hchildren hinner hpath⟩

theorem Mirrors.leaveTimes (h : Mirrors builder linked) {count : Nat}
    (hcount : count ≤ builder.path.length) :
    Mirrors (builder.leaveTimes count) (linked.leaveTimes count) where
  collect := h.collect.trans (Builder.notes_leaveTimes count builder).1.symm
  diagnostics := h.diagnostics.trans (Builder.diagnostics_leaveTimes count builder).symm
  path := h.path.leaveTimes hcount

theorem Mirrors.leaveNoting (h : Mirrors builder linked) (ds : List Diagnostic) {count : Nat}
    (hcount : count ≤ builder.path.length) :
    Mirrors ((builder.noteAll ds).leaveTimes count) ((linked.noteAll ds).leaveTimes count) := by
  have hpath : (builder.noteAll ds).path = builder.path := by
    rw [Builder.noteAll_eq]
    split <;> rfl
  exact (h.noteAll ds).leaveTimes (hpath ▸ hcount)

theorem map_reverse_names {arena : Arena} {ids : List Nat} {path : List OpenElement}
    (h : ids.map arena.name = path.map (·.name)) (f : Text → Diagnostic) :
    (ids.reverse.map fun id => f (arena.name id)) = path.reverse.map fun e => f e.name := by
  have hmap := congrArg (List.map f) h
  rw [List.map_map, List.map_map] at hmap
  rw [List.map_reverse, List.map_reverse]
  exact congrArg List.reverse hmap

theorem insideOf?_names (arena : Arena) (name : Text) {ids : List Nat} {path : List OpenElement}
    (h : ids.map arena.name = path.map (·.name)) :
    (insideOf? arena name ids).map (·.map arena.name) =
      (Builder.insideOf? name path).map (·.map (·.name)) := by
  induction ids generalizing path with
  | nil =>
    obtain rfl : path = [] := by simpa using h.symm
    rfl
  | cons id ids ih =>
    obtain ⟨inner, outer, rfl, hname, hrest⟩ := List.map_eq_cons_iff.1 h.symm
    have hrest := ih hrest.symm
    rw [insideOf?, Builder.insideOf?, hname]
    split
    · rfl
    · have hmap := congrArg (Option.map (arena.name id :: ·)) hrest
      simpa [Option.map_map, Function.comp_def, hname] using hmap

theorem Mirrors.close (h : Mirrors builder linked) (name : Text) (position : Nat) :
    Mirrors (builder.close name position) (linked.close name position) := by
  have hinside := insideOf?_names linked.arena name h.path.names_dropLast
  unfold Builder.close LinkedBuilder.close
  cases hskipped : Builder.insideOf? name builder.path with
  | none =>
    rw [hskipped, Option.map_none, Option.map_eq_none_iff] at hinside
    rw [hinside]
    exact h.noteAll [Builder.unexpectedEndTag position name]
  | some skipped =>
    rw [hskipped, Option.map_some] at hinside
    obtain ⟨ids, hids, hnames⟩ := Option.map_eq_some_iff.1 hinside
    have hlength : ids.length = skipped.length := by simpa using congrArg List.length hnames
    rw [hids]
    dsimp only
    rw [map_reverse_names hnames, hlength]
    exact h.leaveNoting _ (Builder.length_le_of_insideOf? hskipped)

theorem Mirrors.add (h : Mirrors builder linked) (token : Token) :
    Mirrors (builder.add token) (linked.add token) := by
  obtain ⟨lexeme, position⟩ := token
  have htext : "#text".toList ≠ [] := by decide
  have hcomment : "#comment".toList ≠ [] := by decide
  have hcode : "#raw".toList ≠ [] := by decide
  cases lexeme with
  | text data => exact h.append (.text data) htext rfl
  | comment data => exact h.append (.comment data) hcomment rfl
  | code raw => exact h.append (.code raw) hcode rfl
  | tag raw tag =>
    simp only [Builder.add, Builder.addTag, LinkedBuilder.add, LinkedBuilder.addTag]
    split_ifs with hname _ _ _
    · exact h.append (.text raw) htext rfl
    · exact h
    · exact h.close _ _
    · rw [List.isEmpty_iff] at hname
      exact h.append (.element tag.name tag.attributes []) hname rfl
    · rw [List.isEmpty_iff] at hname
      exact h.enter hname _

theorem Mirrors.finish (h : Mirrors builder linked) : Mirrors builder.finish linked.finish := by
  have hlength : linked.stack.length - 1 = builder.path.length := by
    simpa using congrArg List.length h.path.names_dropLast
  rw [Builder.finish, LinkedBuilder.finish, map_reverse_names h.path.names_dropLast, hlength]
  exact h.leaveNoting _ (Nat.le_refl _)

theorem Mirrors.run (h : Mirrors builder linked) (actions : List Builder.Action) :
    Mirrors (builder.run actions) (linked.run actions) := by
  induction actions generalizing builder linked with
  | nil => exact h
  | cons action actions ih =>
    cases action with
    | add token => exact ih (h.add token)
    | finish => exact ih h.finish

theorem Mirrors.nodesAt (h : Mirrors builder linked) :
    linked.arena.nodesAt false (linked.arena.cells.length + 1) 0 = builder.document := by
  -- all that is open is closed, which changes neither the arena nor the tree
  have hall := (h.leaveTimes (Nat.le_refl builder.path.length)).path
  have hnone : (builder.leaveTimes builder.path.length).path = [] := by
    have hnames := Builder.names_leaveTimes builder.path.length builder
    rw [List.drop_of_length_le (by simp [Builder.names])] at hnames
    exact List.map_eq_nil_iff.1 hnames
  rw [hnone] at hall
  change linked.arena.HoldsPath builder.document [] _ linked.arena.cells.length [] at hall
  generalize (linked.leaveTimes builder.path.length).stack = stack at hall
  cases hall with
  | @document ids _ _ hcontent hchildren hroots =>
    have htrees := hroots.flatMap_nodesAt (Nat.le_add_left _ 1)
    rw [List.append_nil] at hchildren
    obtain ⟨cell, hcell, hdocument⟩ := Option.map_eq_some_iff.1 hcontent
    rw [Arena.children, hcell] at hchildren
    rw [Arena.nodesAt, hcell]
    dsimp only
    rw [hdocument, ← htrees, ← hchildren]
    rfl

theorem Mirrors.openNames (h : Mirrors builder linked) :
    linked.stack.reverse.map linked.arena.name = builder.openNames := by
  rw [List.map_reverse, h.path.names, List.reverse_append, Builder.openNames, List.map_reverse]
  rfl

end LinkedBuilder

namespace Builder

/-- The tree of a builder that has been given `tokens` and its open elements, outermost first, and the
same of a linked builder. -/
structure Follows (tokens : List Token) (builder : Builder) (linked : LinkedBuilder) : Prop where
  listing : Node.labelsAll builder.document = tokens.filterMap fun token => token.lexeme.label?
  stack : ∃ path, builder.openNames = "#document".toList :: path.map (·.label.name) ∧
    builder.path.reverse.map OpenElement.label = path.map Node.label ∧
    Node.RightEdge builder.document path
  childless : Node.ProperAll builder.document
  linkedTree : linked.arena.nodesAt false (linked.arena.cells.length + 1) 0 = builder.document
  linkedNames : linked.stack.reverse.map linked.arena.name = builder.openNames
  linkedBase : linked.stack.getLast? = some 0 ∧ linked.arena.content? 0 = some .document
  linkedStack : linked.stack.IsChain fun upper lower =>
    (linked.arena.children lower).getLast? = some upper
  linkedDiagnostics : linked.diagnostics = builder.diagnostics

/-- Whatever a builder is given, its tree holds the nodes of the tokens once and in order, its open
elements lead down the right edge of the tree, and no element has children that may have none. A builder
that keeps a stack beside the tree has the same tree and the same elements open, and each entry of its
stack is the last child of the one below. -/
theorem follows_run (collect : Bool) (actions : List Action) :
    Follows (actions.filterMap Action.token?) ((start collect).run actions)
      ((LinkedBuilder.start collect).run actions) := by
  have hmirrors := (LinkedBuilder.mirrors_start collect).run actions
  have hnone : Node.RightEdge ((start collect).run actions).siblings [] := trivial
  obtain ⟨path, hlabels, hedge⟩ := exists_rightEdge _ hnone
  exact {
    listing := by
      rw [labelsAll_document, labels_run]
      rfl
    stack := by
      refine ⟨path, ?_, hlabels, by simpa using hedge⟩
      rw [openNames_eq, hlabels, List.map_map]
      rfl
    childless := ((proper_start collect).run actions).document
    linkedTree := hmirrors.nodesAt
    linkedNames := hmirrors.openNames
    linkedBase := ⟨hmirrors.path.getLast?, hmirrors.path.content?_zero⟩
    linkedStack := hmirrors.path.isChain
    linkedDiagnostics := hmirrors.diagnostics }

end Builder

end MarkupTemplate
