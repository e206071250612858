import Mathlib.Tactic
import MarkupTemplate.Node.Arena

/-!
# Ownership in an arena

Nodes are put together by calls that append one node to another, and each call is accepted or refused.
A node owns the nodes in its list of children. The children and the parents are kept apart, so that they
agree is an invariant of the calls: a node stands in the list of its parent, there only once, and in no
other list. What an accepted call changes is the parent of the child and the list of the parent, also
where both are the same node. A refused call leaves the arena as it was.
-/

namespace MarkupTemplate.Arena

structure Call where
  parent : Nat
  child : Nat
deriving DecidableEq

variable {arena next : Arena} {call : Call} {id : Nat}

def content? (arena : Arena) (id : Nat) : Option Content :=
  (arena.cell? id).map Cell.content

def children (arena : Arena) (id : Nat) : List Nat :=
  ((arena.cell? id).map Cell.children).getD []

def parent? (arena : Arena) (id : Nat) : Option Nat :=
  (arena.cell? id).bind Cell.parent

def isLeaf (arena : Arena) (id : Nat) : Bool :=
  (arena.content? id).any Content.isLeaf

def Holds (arena : Arena) (id : Nat) : Prop :=
  (arena.cell? id).isSome = true

def created (contents : List Content) : Arena :=
  contents.foldl (fun arena content => (arena.new content).1) empty

def answer (arena : Arena) (call : Call) : Except Refusal Unit :=
  (arena.append call.parent call.child).2

def attempt (arena : Arena) (call : Call) : Arena :=
  (arena.append call.parent call.child).1

def attemptAll (arena : Arena) (calls : List Call) : Arena :=
  calls.foldl attempt arena

def accepted (arena : Arena) : List Call → List Call
  | [] => []
  | call :: calls =>
    if (arena.answer call).isOk then call :: accepted (arena.attempt call) calls
    else accepted (arena.attempt call) calls

structure Appends (arena : Arena) (call : Call) (next : Arena) : Prop where
  content? : ∀ id, next.content? id = arena.content? id
  children : ∀ id, next.children id =
    if id = call.parent then arena.children id ++ [call.child] else arena.children id
  parent? : ∀ id, next.parent? id = if id = call.child then some call.parent else arena.parent? id

/-- The answers to a call on two nodes of an arena, each with the arena that the call leaves. -/
inductive Answer (arena : Arena) (call : Call) : Arena → Except Refusal Unit → Prop
  | leafParent (hleaf : arena.isLeaf call.parent = true) :
      Answer arena call arena (.error (.leafParent (arena.name call.parent)))
  | alreadyOwned {owner : Nat} (hleaf : arena.isLeaf call.parent = false)
      (howner : arena.parent? call.child = some owner) :
      Answer arena call arena (.error (.alreadyOwned (arena.name call.child) (arena.name owner)))
  | accepted {next : Arena} (hleaf : arena.isLeaf call.parent = false)
      (howner : arena.parent? call.child = none) (happends : Appends arena call next) :
      Answer arena call next (.ok ())

/-- The lists of children and the parents agree, and leaves have no children. -/
structure Consistent (arena : Arena) : Prop where
  nodup : ∀ p, (arena.children p).Nodup
  unique : ∀ id p q, id ∈ arena.children p → id ∈ arena.children q → p = q
  parent_iff : ∀ id p, arena.parent? id = some p ↔ id ∈ arena.children p
  leaf : ∀ id, arena.isLeaf id = true → arena.children id = []

theorem name_of_content? {content : Content} (h : arena.content? id = some content) :
    arena.name id = content.name := by
  obtain ⟨cell, hcell, rfl⟩ := Option.map_eq_some_iff.1 h
  rw [name, hcell]
  rfl

theorem holds_of_content? {content : Content} (h : arena.content? id = some content) :
    arena.Holds id := by
  obtain ⟨cell, hcell, -⟩ := Option.map_eq_some_iff.1 h
  rw [Holds, hcell]
  rfl

theorem new_of_name {content : Content} (hname : content.name ≠ []) :
    arena.new content = (⟨arena.cells ++ [⟨content, [], none⟩]⟩, .ok arena.cells.length) := by
  rw [new, if_neg]
  rwa [List.isEmpty_iff]

theorem cell?_link (arena : Arena) (parent child id : Nat) :
    (arena.link parent child).cell? id = (arena.cell? id).map fun cell =>
      { cell with
        children := if id = parent then cell.children ++ [child] else cell.children
        parent := if id = child then some parent else cell.parent } := by
  simp only [cell?, link, List.getElem?_modify]
  cases arena.cells[id]? with
  | none => rfl
  | some cell =>
    by_cases hparent : parent = id
    · by_cases hchild : child = id
      · simp [hparent, hchild]
      · simp [hparent, hchild, Ne.symm hchild]
    · by_cases hchild : child = id
      · simp [hparent, hchild, Ne.symm hparent]
      · simp [hparent, hchild, Ne.symm hparent, Ne.symm hchild]

theorem appends_link (hparent : arena.Holds call.parent) (hchild : arena.Holds call.child) :
    Appends arena call (arena.link call.parent call.child) where
  content? := by
    intro id
    rw [content?, content?, cell?_link, Option.map_map]
    rfl
  children := by
    intro id
    rw [children, children, cell?_link, Option.map_map]
    by_cases hid : id = call.parent
    · subst hid
      obtain ⟨cell, hcell⟩ := Option.isSome_iff_exists.1 hparent
      simp [hcell]
    · simp only [if_neg hid]
      rfl
  parent? := by
    intro id
    rw [parent?, parent?, cell?_link, Option.bind_map]
    by_cases hid : id = call.child
    · subst hid
      obtain ⟨cell, hcell⟩ := Option.isSome_iff_exists.1 hchild
      simp [hcell]
    · simp only [if_neg hid]
      rfl

theorem answer_append (hparent : arena.Holds call.parent) (hchild : arena.Holds call.child) :
    Answer arena call (arena.attempt call) (arena.answer call) := by
  have happends := appends_link hparent hchild
  obtain ⟨p, hp⟩ := Option.isSome_iff_exists.1 hparent
  obtain ⟨c, hc⟩ := Option.isSome_iff_exists.1 hchild
  have hleaf : arena.isLeaf call.parent = p.content.isLeaf := by
    simp [isLeaf, content?, hp]
  have howner : arena.parent? call.child = c.parent := by
    simp [parent?, hc]
  have hnameParent : arena.name call.parent = p.content.name := by
    simp [name, hp]
  have hnameChild : arena.name call.child = c.content.name := by
    simp [name, hc]
  rw [attempt, answer, append, hp, hc]
  dsimp only
  by_cases h : p.content.isLeaf = true
  · rw [if_pos h, ← hnameParent]
    exact .leafParent (hleaf.trans h)
  · rw [if_neg h]
    rw [Bool.not_eq_true] at h
    cases hcp : c.parent with
    | none => exact .accepted (hleaf.trans h) (howner.trans hcp) happends
    | some owner =>
      rw [← hnameChild]
      exact .alreadyOwned (hleaf.trans h) (howner.trans hcp)

theorem appends_attempt (hparent : arena.Holds call.parent)
    (hchild : arena.Holds call.child) (hleaf : arena.isLeaf call.parent = false)
    (howner : arena.parent? call.child = none) : Appends arena call (arena.attempt call) := by
  have hanswer := answer_append hparent hchild
  generalize arena.attempt call = next at hanswer ⊢
  generalize arena.answer call = result at hanswer
  cases hanswer with
  | leafParent h => exact absurd (h.symm.trans hleaf) (by decide)
  | alreadyOwned _ h => exact absurd (h.symm.trans howner) (Option.some_ne_none _)
  | accepted _ _ happends => exact happends

example : ((⟨[⟨.document, [], none⟩]⟩ : Arena).append 0 0).1.cells =
    [⟨.document, [0], some 0⟩] := rfl

theorem append_of_not_holds (h : ¬ (arena.Holds call.parent ∧ arena.Holds call.child)) :
    arena.append call.parent call.child = (arena, .error .unknownNode) := by
  unfold append
  split
  · next p c hp hc => exact absurd ⟨by simp [Holds, hp], by simp [Holds, hc]⟩ h
  · rfl

theorem length_attempt (arena : Arena) (call : Call) :
    (arena.attempt call).cells.length = arena.cells.length := by
  unfold attempt append
  split
  · split
    · rfl
    · split
      · rfl
      · simp [Arena.link]
  · rfl

/-- What a call does: nothing, or all that an accepted call changes. -/
theorem attempt_cases (arena : Arena) (call : Call) :
    ((∃ refusal, arena.answer call = .error refusal) ∧ arena.attempt call = arena) ∨
    (arena.answer call = .ok () ∧ arena.isLeaf call.parent = false ∧
      arena.parent? call.child = none ∧ Appends arena call (arena.attempt call)) := by
  by_cases hholds : arena.Holds call.parent ∧ arena.Holds call.child
  · have hanswer := answer_append hholds.1 hholds.2
    generalize arena.attempt call = next at hanswer ⊢
    generalize arena.answer call = result at hanswer ⊢
    cases hanswer with
    | leafParent _ => exact .inl ⟨⟨_, rfl⟩, rfl⟩
    | alreadyOwned _ _ => exact .inl ⟨⟨_, rfl⟩, rfl⟩
    | accepted hleaf howner happends => exact .inr ⟨rfl, hleaf, howner, happends⟩
  · rw [answer, attempt, append_of_not_holds hholds]
    exact .inl ⟨⟨_, rfl⟩, rfl⟩

theorem attempt_of_error {refusal : Refusal} (h : arena.answer call = .error refusal) :
    arena.attempt call = arena := by
  rcases attempt_cases arena call with ⟨-, hsame⟩ | ⟨hok, -⟩
  · exact hsame
  · cases h.symm.trans hok

theorem Appends.isLeaf (h : Appends arena call next) (id : Nat) : next.isLeaf id = arena.isLeaf id := by
  rw [Arena.isLeaf, h.content?, Arena.isLeaf]

theorem Consistent.of_parent_iff (hnodup : ∀ p, (arena.children p).Nodup)
    (hparent : ∀ id p, arena.parent? id = some p ↔ id ∈ arena.children p)
    (hleaf : ∀ id, arena.isLeaf id = true → arena.children id = []) : Consistent arena where
  nodup := hnodup
  unique := by
    intro id p q hp hq
    have h := (hparent id p).2 hp
    rw [(hparent id q).2 hq] at h
    exact (Option.some_inj.1 h).symm
  parent_iff := hparent
  leaf := hleaf

theorem Consistent.appends (h : Consistent arena) (hleaf : arena.isLeaf call.parent = false)
    (howner : arena.parent? call.child = none) (happends : Appends arena call next) :
    Consistent next := by
  -- the child is in no list yet, or it would have a parent
  have hfree : ∀ p, call.child ∉ arena.children p := by
    intro p hmem
    rw [(h.parent_iff call.child p).2 hmem] at howner
    exact Option.some_ne_none p howner
  apply Consistent.of_parent_iff
  · intro p
    rw [happends.children]
    by_cases hp : p = call.parent
    · rw [if_pos hp, ← List.concat_eq_append]
      exact (h.nodup p).concat (hfree p)
    · rw [if_neg hp]
      exact h.nodup p
  · intro id p
    rw [happends.parent?, happends.children]
    by_cases hid : id = call.child
    · by_cases hp : p = call.parent
      · simp [hid, hp]
      · simp [hid, hp, Ne.symm hp, hfree p]
    · by_cases hp : p = call.parent
      · simp [hid, hp, h.parent_iff]
      · simp [hid, hp, h.parent_iff]
  · intro id hid
    rw [happends.isLeaf] at hid
    have hne : id ≠ call.parent := by
      rintro rfl
      rw [hleaf] at hid
      exact Bool.false_ne_true hid
    rw [happends.children, if_neg hne]
    exact h.leaf id hid

theorem Consistent.attempt (h : Consistent arena) (call : Call) : Consistent (arena.attempt call) := by
  rcases attempt_cases arena call with ⟨-, hsame⟩ | ⟨-, hleaf, howner, happends⟩
  · rw [hsame]
    exact h
  · exact h.appends hleaf howner happends

theorem attemptAll_cons (arena : Arena) (call : Call) (calls : List Call) :
    arena.attemptAll (call :: calls) = (arena.attempt call).attemptAll calls := rfl

theorem Consistent.attemptAll (h : Consistent arena) (calls : List Call) :
    Consistent (arena.attemptAll calls) := by
  induction calls generalizing arena with
  | nil => exact h
  | cons call calls ih => exact ih (h.attempt call)

theorem children_attemptAll (arena : Arena) (calls : List Call) (id : Nat) :
    (arena.attemptAll calls).children id =
      arena.children id ++ ((arena.accepted calls).filter (·.parent = id)).map Call.child := by
  induction calls generalizing arena with
  | nil => simp [Arena.attemptAll, accepted]
  | cons call calls ih =>
    rw [attemptAll_cons, ih, accepted]
    rcases attempt_cases arena call with ⟨⟨refusal, hrefused⟩, hsame⟩ | ⟨hok, -, -, happends⟩
    · simp [hrefused, hsame, Except.isOk, Except.toBool]
    · rw [happends.children]
      by_cases hid : id = call.parent
      · simp [hok, hid, Except.isOk, Except.toBool]
      · simp [hok, hid, Ne.symm hid, Except.isOk, Except.toBool]

theorem content?_attemptAll (arena : Arena) (calls : List Call) (id : Nat) :
    (arena.attemptAll calls).content? id = arena.content? id := by
  induction calls generalizing arena with
  | nil => rfl
  | cons call calls ih =>
    refine (ih (arena.attempt call)).trans ?_
    rcases attempt_cases arena call with ⟨-, hsame⟩ | ⟨-, -, -, happends⟩
    · rw [hsame]
    · exact happends.content? id

theorem attemptAll_accepted (arena : Arena) (calls : List Call) :
    arena.attemptAll (arena.accepted calls) = arena.attemptAll calls := by
  induction calls generalizing arena with
  | nil => rfl
  | cons call calls ih =>
    rw [accepted, attemptAll_cons]
    rcases attempt_cases arena call with ⟨⟨refusal, hrefused⟩, hsame⟩ | ⟨hok, -⟩
    · rw [hrefused, hsame]
      exact ih arena
    · rw [hok]
      exact ih (arena.attempt call)

theorem cells_created (contents : List Content) :
    (created contents).cells =
      (contents.filter fun content => !content.name.isEmpty).map fun content => ⟨content, [], none⟩ := by
  have hcreate : ∀ arena : Arena,
      (contents.foldl (fun arena content => (arena.new content).1) arena).cells = arena.cells ++
      (contents.filter fun content => !content.name.isEmpty).map fun content => ⟨content, [], none⟩ := by
    induction contents with
    | nil => simp
    | cons content contents ih =>
      intro arena
      rw [List.foldl_cons, ih]
      by_cases hname : content.name.isEmpty = true
      · simp [new, hname]
      · simp [new, hname]
  exact hcreate empty

theorem cell_of_created {contents : List Content} {cell : Cell}
    (h : (created contents).cell? id = some cell) : cell.children = [] ∧ cell.parent = none := by
  rw [cell?, cells_created, List.getElem?_map] at h
  obtain ⟨content, -, rfl⟩ := Option.map_eq_some_iff.1 h
  exact ⟨rfl, rfl⟩

theorem children_created (contents : List Content) (id : Nat) : (created contents).children id = [] := by
  rw [children]
  cases h : (created contents).cell? id with
  | none => rfl
  | some cell => exact (cell_of_created h).1

theorem parent?_created (contents : List Content) (id : Nat) : (created contents).parent? id = none := by
  rw [parent?]
  cases h : (created contents).cell? id with
  | none => rfl
  | some cell => exact (cell_of_created h).2

theorem consistent_created (contents : List Content) : Consistent (created contents) := by
  apply Consistent.of_parent_iff
  · intro p
    rw [children_created]
    exact List.nodup_nil
  · intro id p
    simp [parent?_created, children_created]
  · intro id _
    exact children_created contents id

structure WellOwned (start : Arena) (calls : List Call) (arena : Arena) : Prop where
  consistent : Consistent arena
  contents : ∀ id, arena.content? id = start.content? id
  order : ∀ id, arena.children id =
    ((start.accepted calls).filter (·.parent = id)).map Call.child
  answers : ∀ call : Call, arena.Holds call.parent → arena.Holds call.child →
    Answer arena call (arena.append call.parent call.child).1 (arena.append call.parent call.child).2
  refused : ∀ (call : Call) (refusal : Refusal),
    (arena.append call.parent call.child).2 = .error refusal →
      (arena.append call.parent call.child).1 = arena
  retraced : start.attemptAll (start.accepted calls) = arena

/-- Ownership stays consistent, whatever calls are made on new nodes. -/
theorem wellOwned_attemptAll (contents : List Content) (calls : List Call) :
    WellOwned (created contents) calls ((created contents).attemptAll calls) where
  consistent := (consistent_created contents).attemptAll calls
  contents := content?_attemptAll (created contents) calls
  order := by
    intro id
    rw [children_attemptAll, children_created, List.nil_append]
  answers := fun _ => answer_append
  refused := fun _ _ => attempt_of_error
  retraced := attemptAll_accepted (created contents) calls

end MarkupTemplate.Arena
