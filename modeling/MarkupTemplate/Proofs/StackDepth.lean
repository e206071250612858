import MarkupTemplate.Proofs.Failures

/-!
# Compiling on a bounded stack

Where the stack holds only so many elements inside one another, rendering comes to what it would come to
without a bound, unless it gets to an element for which there is no room. Then it fails there, whatever
would have come after. So a document that nests no deeper than the stack holds is rendered as if there
were no bound, and one that is rendered without a failure but nests deeper is not.
-/

namespace MarkupTemplate

namespace Node

mutual

def depth : Node → Nat
  | .text _ | .comment _ | .code _ => 0
  | .element _ _ children => depthAll children + 1

def depthAll : List Node → Nat
  | [] => 0
  | node :: nodes => max node.depth (depthAll nodes)

end

end Node

namespace Stack

variable {stack : Stack} {a b : Nat}

def Holds : Stack → Nat → Prop
  | unbounded, _ => True
  | levels left, depth => depth ≤ left

instance : Decidable (stack.Holds a) :=
  match stack with
  | unbounded => .isTrue trivial
  | levels left => inferInstanceAs (Decidable (a ≤ left))

theorem holds_zero (stack : Stack) : stack.Holds 0 := by
  cases stack <;> simp [Holds]

theorem holds_max_iff : stack.Holds (max a b) ↔ stack.Holds a ∧ stack.Holds b := by
  cases stack <;> simp [Holds]

theorem holds_succ_iff : stack.Holds (a + 1) ↔ ∃ inside, stack.push? = some inside ∧ inside.Holds a := by
  cases stack with
  | unbounded => simp [Holds, push?]
  | levels left => cases left <;> simp [Holds, push?]

end Stack

namespace Render

/-- Rendering gets to an element for which there is no room: all that is rendered before it succeeds. -/
inductive RunsOut : Stack → List Node → Prop
  | here {stack : Stack} {name : Text} {attributes : Attributes} {children rest : List Node}
      (hname : Node.leafNames.contains name = false) (hstack : stack.push? = none) :
      RunsOut stack (.element name attributes children :: rest)
  | inside {stack inside : Stack} {name : Text} {attributes : Attributes} {children rest : List Node}
      (hname : Node.leafNames.contains name = false) (hstack : stack.push? = some inside)
      (h : RunsOut inside children) : RunsOut stack (.element name attributes children :: rest)
  | after {stack : Stack} {node : Node} {rest : List Node} {page : Page}
      (hnode : (render node).outcome = .ok page) (hholds : stack.Holds node.depth)
      (h : RunsOut stack rest) : RunsOut stack (node :: rest)

variable {stack : Stack} {nodes : List Node}

theorem not_runsOut_of_holds (hholds : stack.Holds (Node.depthAll nodes)) : ¬ RunsOut stack nodes := by
  intro h
  induction h with
  | here hname hstack =>
    obtain ⟨inside, hinside, -⟩ := Stack.holds_succ_iff.1 (Stack.holds_max_iff.1 hholds).1
    cases hstack.symm.trans hinside
  | inside hname hstack _ ih =>
    obtain ⟨inside, hinside, hchildren⟩ := Stack.holds_succ_iff.1 (Stack.holds_max_iff.1 hholds).1
    cases hstack.symm.trans hinside
    exact ih hchildren
  | after _ _ _ ih => exact ih (Stack.holds_max_iff.1 hholds).2

mutual

theorem renderOn_of_holds : ∀ (stack : Stack) (node : Node), stack.Holds node.depth →
    renderOn stack node = render node
  | stack, .text data, _ => by rw [renderOn, render_text]
  | stack, .comment data, _ => by rw [renderOn, render_comment]
  | stack, .code data, _ => by rw [renderOn, render_code]
  | stack, .element name attributes children, h => by
    obtain ⟨inside, hinside, hchildren⟩ := Stack.holds_succ_iff.1 h
    rw [renderOn, render_element, hinside]
    dsimp only
    rw [renderAllOn_of_holds inside children hchildren]

theorem renderAllOn_of_holds : ∀ (stack : Stack) (nodes : List Node),
    stack.Holds (Node.depthAll nodes) → renderAllOn stack nodes = renderAll nodes
  | stack, [], _ => by rw [renderAllOn, renderAll_nil]
  | stack, node :: nodes, h => by
    obtain ⟨hnode, hnodes⟩ := Stack.holds_max_iff.1 h
    rw [renderAllOn, renderAll_cons, renderOn_of_holds stack node hnode,
      renderAllOn_of_holds stack nodes hnodes]

end

theorem outcome_of_runsOut (h : RunsOut stack nodes) :
    (renderAllOn stack nodes).outcome = .error .tooDeep := by
  induction h with
  | here hname hstack =>
    rw [renderAllOn, Rendered.outcome_bind_eq_error_iff, renderOn, hname, hstack]
    exact .inl rfl
  | inside hname hstack _ ih =>
    rw [renderAllOn, Rendered.outcome_bind_eq_error_iff, renderOn, hname, hstack]
    exact .inl (Rendered.outcome_bind_eq_error_iff.2 (.inl ih))
  | after hnode hholds _ ih =>
    rw [renderAllOn, Rendered.outcome_bind_eq_error_iff, renderOn_of_holds _ _ hholds]
    exact .inr ⟨_, hnode, Rendered.outcome_bind_eq_error_iff.2 (.inl ih)⟩

mutual

theorem renderOn_cases : ∀ (stack : Stack) (node : Node),
    (∀ rest, RunsOut stack (node :: rest)) ∨
      (renderOn stack node = render node ∧
        ∀ page, (render node).outcome = .ok page → stack.Holds node.depth)
  | stack, .text data => .inr ⟨renderOn_of_holds _ _ stack.holds_zero, fun _ _ => stack.holds_zero⟩
  | stack, .comment data => .inr ⟨renderOn_of_holds _ _ stack.holds_zero, fun _ _ => stack.holds_zero⟩
  | stack, .code data => .inr ⟨renderOn_of_holds _ _ stack.holds_zero, fun _ _ => stack.holds_zero⟩
  | stack, .element name attributes children => by
    rw [renderOn, render_element]
    cases hname : Node.leafNames.contains name with
    | true => exact .inr ⟨rfl, fun page h => by cases h⟩
    | false =>
      cases hstack : stack.push? with
      | none => exact .inl fun _ => .here hname hstack
      | some inside =>
        rcases renderAllOn_cases inside children with hout | ⟨hsame, hholds⟩
        · exact .inl fun _ => .inside hname hstack hout
        · refine .inr ⟨congrArg (Rendered.bind · _) hsame, fun page h => ?_⟩
          obtain ⟨inner, hinner, -⟩ := Rendered.outcome_bind_eq_ok_iff.1 h
          exact Stack.holds_succ_iff.2 ⟨inside, hstack, hholds inner hinner⟩

/-- Rendering runs out of stack, or it is as if there were no bound and there was room for all that it
has rendered. -/
theorem renderAllOn_cases : ∀ (stack : Stack) (nodes : List Node),
    RunsOut stack nodes ∨
      (renderAllOn stack nodes = renderAll nodes ∧
        ∀ page, (renderAll nodes).outcome = .ok page → stack.Holds (Node.depthAll nodes))
  | stack, [] => .inr ⟨renderAllOn_of_holds _ _ stack.holds_zero, fun _ _ => stack.holds_zero⟩
  | stack, node :: nodes => by
    rcases renderOn_cases stack node with hout | ⟨hsame, hholds⟩
    · exact .inl (hout nodes)
    rw [renderAllOn, renderAll_cons, hsame]
    cases hnode : (render node).outcome with
    | error e =>
      refine .inr ⟨by simp only [Rendered.bind, hnode], fun page h => ?_⟩
      rcases Rendered.outcome_bind_eq_ok_iff.1 h with ⟨_, hok, -⟩
      cases hnode.symm.trans hok
    | ok first =>
      rcases renderAllOn_cases stack nodes with hout | ⟨hrest, hholdsRest⟩
      · exact .inl (.after hnode (hholds first hnode) hout)
      · refine .inr ⟨by rw [hrest], fun page h => Stack.holds_max_iff.2 ⟨hholds first hnode, ?_⟩⟩
        obtain ⟨_, -, h⟩ := Rendered.outcome_bind_eq_ok_iff.1 h
        obtain ⟨last, hlast, -⟩ := Rendered.outcome_bind_eq_ok_iff.1 h
        exact hholdsRest last hlast

end

theorem renderAllOn_of_not_runsOut (h : ¬ RunsOut stack nodes) :
    renderAllOn stack nodes = renderAll nodes := by
  rcases renderAllOn_cases stack nodes with hout | ⟨hsame, -⟩
  · exact absurd hout h
  · exact hsame

theorem runsOut_of_not_holds {page : Page} (hpage : (renderAll nodes).outcome = .ok page)
    (hholds : ¬ stack.Holds (Node.depthAll nodes)) : RunsOut stack nodes := by
  rcases renderAllOn_cases stack nodes with hout | ⟨-, hroom⟩
  · exact hout
  · exact absurd (hroom page hpage) hholds

end Render

/-- Compiling a source gets to an element for which there is no room on the stack. -/
def Exhausts (stack : Stack) (strict : Bool) (source : Text) : Prop :=
  (strict = true → Scan.cuts source = []) ∧ Render.RunsOut stack (documentOf (tokenize source))

section Compile

variable {stack : Stack} {strict : Bool} {source : Text}

theorem compileTextOn_eq (stack : Stack) (strict injectAssets : Bool) (source : Text) :
    compileTextOn stack strict injectAssets source =
      match scan strict source with
      | .error e => .error (.template e)
      | .ok tokens =>
        ((Session.start injectAssets).complete (renderAllOn stack (documentOf tokens))).outcome := by
  rw [compileTextOn, outcome_compileWith]
  cases scan strict source with
  | error e => rfl
  | ok tokens =>
    dsimp only
    cases ((Session.start injectAssets).complete (renderAllOn stack (documentOf tokens))).outcome <;> rfl

theorem compileTextOn_unbounded (strict injectAssets : Bool) (source : Text) :
    compileTextOn .unbounded strict injectAssets source = compileText strict injectAssets source := rfl

theorem scan_eq_ok_iff {tokens : List Token} : scan strict source = .ok tokens ↔
    (strict = true → Scan.cuts source = []) ∧ tokens = tokenize source := by
  rw [scan_eq]
  cases strict with
  | false => simp [@eq_comm _ tokens]
  | true => cases hc : Scan.cuts source <;> simp [@eq_comm _ tokens]

theorem compileTextOn_of_exhausts (h : Exhausts stack strict source) (injectAssets : Bool) :
    compileTextOn stack strict injectAssets source = .error .tooDeep := by
  have hrender := Render.outcome_of_runsOut h.2
  rw [compileTextOn_eq, scan_eq_ok_iff.2 ⟨h.1, rfl⟩]
  simp [Session.complete, Session.receive, hrender]

theorem compileTextOn_of_not_exhausts (h : ¬ Exhausts stack strict source) (injectAssets : Bool) :
    compileTextOn stack strict injectAssets source = compileText strict injectAssets source := by
  rw [← compileTextOn_unbounded, compileTextOn_eq, compileTextOn_eq]
  cases hscan : scan strict source with
  | error e => rfl
  | ok tokens =>
    obtain ⟨hcuts, rfl⟩ := scan_eq_ok_iff.1 hscan
    have hroom : ¬ Render.RunsOut stack (documentOf (tokenize source)) := fun hout => h ⟨hcuts, hout⟩
    dsimp only
    rw [Render.renderAllOn_of_not_runsOut hroom]
    rfl

theorem exhausts_iff_of_compileText {injectAssets : Bool} {output : Text}
    (h : compileText strict injectAssets source = .ok output) :
    Exhausts stack strict source ↔ ¬ stack.Holds (Node.depthAll (documentOf (tokenize source))) := by
  refine ⟨fun hout hholds => Render.not_runsOut_of_holds hholds hout.2, fun hholds => ?_⟩
  rw [← compileTextOn_unbounded, compileTextOn_eq] at h
  split at h
  · cases h
  · next tokens hscan =>
    obtain ⟨hcuts, rfl⟩ := scan_eq_ok_iff.1 hscan
    cases hpage : (renderAllOn .unbounded (documentOf (tokenize source))).outcome with
    | error e => simp [Session.complete, Session.receive, hpage] at h
    | ok page => exact ⟨hcuts, Render.runsOut_of_not_holds hpage hholds⟩

end Compile

end MarkupTemplate
