import MarkupTemplate.Proofs.OpenPath

/-!
# Writing a tree as tokens

A forest can be written as tokens in many ways: positions and the text of tags are free, a closing tag may
change the letter case of the name, and an element without children may close itself. Whatever way is
chosen, building gives back the forest and has nothing to note. Every tree that comes out of a builder can
be written so, however much was recovered from on the way in.
-/

namespace MarkupTemplate

theorem Text.lower_ne_nil {s : Text} (h : s ≠ []) : Text.lower s ≠ [] := by
  obtain ⟨c, rest, rfl⟩ := List.exists_cons_of_ne_nil h
  have hletter : ∀ before after, Text.lowerLetter before c after ≠ [] := by
    intro before after
    unfold Text.lowerLetter
    split_ifs <;> exact List.cons_ne_nil _ _
  intro hnil
  exact hletter [] rest (List.append_eq_nil_iff.mp hnil).1

inductive Node.Single : Node → Lexeme → Prop
  | text (data : Text) : Single (.text data) (.text data)
  | comment (data : Text) : Single (.comment data) (.comment data)
  | code (data : Text) : Single (.code data) (.code data)
  | childless {name : Text} (attributes : Attributes) (raw : Text) (slash : Bool) : name ≠ [] →
      isChildless name = true →
      Single (.element name attributes []) (.tag raw ⟨name, attributes, false, slash⟩)
  | selfClosing {name : Text} (attributes : Attributes) (raw : Text) : name ≠ [] →
      Single (.element name attributes []) (.tag raw ⟨name, attributes, false, true⟩)

/-- The tokens write the forest: one token for a leaf, and for another element its opening tag, its
children and a closing tag of its name in any letter case. -/
inductive Node.Linear : List Node → List Token → Prop
  | nil : Linear [] []
  | single {node : Node} {lexeme : Lexeme} {nodes : List Node} {tokens : List Token} (position : Nat) :
      node.Single lexeme → Linear nodes tokens → Linear (node :: nodes) (⟨lexeme, position⟩ :: tokens)
  | element {name last : Text} {children nodes : List Node} {inside tokens : List Token}
      (attributes ignored : Attributes) (raw rawEnd : Text) (slash : Bool) (position positionEnd : Nat) :
      name ≠ [] → isChildless name = false → Text.lower last = Text.lower name →
      Linear children inside → Linear nodes tokens →
      Linear (.element name attributes children :: nodes)
        (⟨.tag raw ⟨name, attributes, false, false⟩, position⟩ :: inside ++
          ⟨.tag rawEnd ⟨last, ignored, true, slash⟩, positionEnd⟩ :: tokens)

def Node.Named (nodes : List Node) : Prop :=
  ∀ name attributes, .element name attributes ∈ Node.labelsAll nodes → name ≠ []

namespace Builder

theorem add_single {node : Node} {lexeme : Lexeme} (h : node.Single lexeme) (builder : Builder)
    (position : Nat) : builder.add ⟨lexeme, position⟩ = builder.append node := by
  cases h with
  | text data => rfl
  | comment data => rfl
  | code data => rfl
  | childless attributes raw slash hname hchildless => simp [add, addTag, hname, hchildless]
  | selfClosing attributes raw hname => simp [add, addTag, hname]

theorem add_opening {name : Text} (hname : name ≠ []) (hopen : isChildless name = false)
    (builder : Builder) (attributes : Attributes) (raw : Text) (position : Nat) :
    builder.add ⟨.tag raw ⟨name, attributes, false, false⟩, position⟩ =
      builder.enter name attributes := by
  simp [add, addTag, hname, hopen]

theorem add_closing {name last : Text} (hname : name ≠ []) (hopen : isChildless name = false)
    (hlast : Text.lower last = Text.lower name) (builder : Builder) (attributes ignored : Attributes)
    (children : List Node) (raw : Text) (slash : Bool) (position : Nat) :
    ((builder.enter name attributes).appendAll children).add
        ⟨.tag raw ⟨last, ignored, true, slash⟩, position⟩ =
      builder.append (.element name attributes children) := by
  have hne : last ≠ [] := by
    rintro rfl
    exact Text.lower_ne_nil hname hlast.symm
  have hasset : (isLoad last || isUnload last) = false := by
    simp only [isChildless, Bool.or_eq_false_iff] at hopen
    simp only [isLoad, isUnload, hlast, Bool.or_eq_false_iff] at hopen ⊢
    exact ⟨hopen.1.2, hopen.2⟩
  -- the closing tag finds its element innermost, so nothing is noted
  rw [appendAll_cons_path rfl]
  simp [add, addTag, hne, hasset, close, insideOf?, hlast, noteAll, leaveTimes, leave, enter,
    OpenElement.close]

/-- In any state of the builder the tokens of a forest append the forest. -/
theorem addAll_linear {nodes : List Node} {tokens : List Token} (h : Node.Linear nodes tokens)
    (builder : Builder) : builder.addAll tokens = builder.appendAll nodes := by
  induction h generalizing builder with
  | nil => rfl
  | @single node lexeme nodes tokens position hsingle _ ih =>
    calc builder.addAll (⟨lexeme, position⟩ :: tokens)
        = (builder.add ⟨lexeme, position⟩).addAll tokens := rfl
      _ = (builder.append node).addAll tokens := by rw [add_single hsingle]
      _ = (builder.append node).appendAll nodes := ih _
  | @element name last children nodes inside tokens attributes ignored raw rawEnd slash position
      positionEnd hname hopen hlast _ _ ihchildren ihnodes =>
    have hinside : (builder.enter name attributes).addAll inside =
        (builder.enter name attributes).appendAll children :=
      ihchildren _
    have hclosing := add_closing hname hopen hlast builder attributes ignored children rawEnd slash
      positionEnd
    calc builder.addAll (⟨.tag raw ⟨name, attributes, false, false⟩, position⟩ :: inside ++
          ⟨.tag rawEnd ⟨last, ignored, true, slash⟩, positionEnd⟩ :: tokens)
        = (((builder.enter name attributes).addAll inside).add
            ⟨.tag rawEnd ⟨last, ignored, true, slash⟩, positionEnd⟩).addAll tokens := by
          rw [addAll, List.cons_append, List.foldl_cons, List.foldl_append, List.foldl_cons,
            add_opening hname hopen]
          rfl
      _ = (builder.append (.element name attributes children)).addAll tokens := by
          rw [hinside, hclosing]
      _ = (builder.append (.element name attributes children)).appendAll nodes := ihnodes _

end Builder

theorem build_of_linear {nodes : List Node} {tokens : List Token} (h : Node.Linear nodes tokens)
    (collect : Bool) : build collect tokens = ⟨collect, nodes, [], []⟩ := by
  rw [build, Builder.addAll_linear h, Builder.appendAll_nil_path rfl]
  rfl

namespace Node

mutual

theorem exists_linear_cons : ∀ node : Node, node.Proper →
    (∀ name attributes, .element name attributes ∈ node.labels → name ≠ []) →
    ∀ {nodes : List Node} {tokens : List Token}, Linear nodes tokens → ∃ all, Linear (node :: nodes) all
  | .text data, _, _, _, _, h => ⟨_, .single 0 (.text data) h⟩
  | .comment data, _, _, _, _, h => ⟨_, .single 0 (.comment data) h⟩
  | .code data, _, _, _, _, h => ⟨_, .single 0 (.code data) h⟩
  | .element name attributes children, hproper, hnamed, _, _, h => by
    rw [labels_element] at hnamed
    have hname : name ≠ [] := hnamed name attributes List.mem_cons_self
    cases hchildless : isChildless name with
    | true =>
      rw [hproper.1 hchildless]
      exact ⟨_, .single 0 (.childless attributes [] false hname hchildless) h⟩
    | false =>
      have hinner : Named children := fun n as hmem => hnamed n as (List.mem_cons_of_mem _ hmem)
      obtain ⟨inside, hinside⟩ := exists_linear children hproper.2 hinner
      exact ⟨_, .element attributes [] [] [] false 0 0 hname hchildless rfl hinside h⟩

theorem exists_linear : ∀ nodes : List Node, ProperAll nodes → Named nodes →
    ∃ tokens, Linear nodes tokens
  | [], _, _ => ⟨[], .nil⟩
  | node :: nodes, hproper, hnamed => by
    rw [Named, labelsAll_cons] at hnamed
    have hrest : Named nodes := fun n as hmem => hnamed n as (List.mem_append_right _ hmem)
    obtain ⟨tokens, htokens⟩ := exists_linear nodes hproper.2 hrest
    apply exists_linear_cons node hproper.1 _ htokens
    exact fun n as hmem => hnamed n as (List.mem_append_left _ hmem)

end

/-- The forest can be written as tokens, and all tokens that write it are built back into it, with
nothing left open and nothing noted. -/
structure Rebuilds (nodes : List Node) : Prop where
  written : ∃ tokens, Linear nodes tokens
  built : ∀ tokens, Linear nodes tokens → ∀ collect, build collect tokens = ⟨collect, nodes, [], []⟩

end Node

theorem named_build (collect : Bool) (tokens : List Token) :
    Node.Named (build collect tokens).roots := by
  intro name attributes hmem
  rw [labelsAll_build] at hmem
  obtain ⟨⟨lexeme, position⟩, -, hlabel⟩ := List.mem_filterMap.mp hmem
  cases lexeme with
  | tag raw t =>
    simp only [Lexeme.label?] at hlabel
    split_ifs at hlabel with hempty hclosing
    · cases hlabel
    · cases hlabel
      exact fun hnil => hempty (List.isEmpty_iff.mpr hnil)
  | _ => cases hlabel

/-- Building inverts writing, for every forest and so for every tree that was built. -/
theorem forests_rebuild :
    (∀ nodes, Node.ProperAll nodes → Node.Named nodes → Node.Rebuilds nodes) ∧
      ∀ collect tokens, Node.Rebuilds (build collect tokens).roots := by
  have hforest : ∀ nodes, Node.ProperAll nodes → Node.Named nodes → Node.Rebuilds nodes :=
    fun nodes hproper hnamed =>
      ⟨Node.exists_linear nodes hproper hnamed, fun _ h collect => build_of_linear h collect⟩
  refine ⟨hforest, fun collect tokens => ?_⟩
  exact hforest _ (Builder.proper_build collect tokens).roots (named_build collect tokens)

def nestedForest : List Node :=
  [.element ['d', 'i', 'v'] []
    [.text ['x'],
      .element ['D', 'i', 'v'] [(['i', 'd'], .flag)] [.element ['b', 'r'] [] [], .comment ['c']],
      .element ['p'] [] []]]

def nestedTokens : List Token :=
  [⟨.tag [] ⟨['d', 'i', 'v'], [], false, false⟩, 0⟩,
    ⟨.text ['x'], 1⟩,
    ⟨.tag [] ⟨['D', 'i', 'v'], [(['i', 'd'], .flag)], false, false⟩, 2⟩,
    ⟨.tag [] ⟨['b', 'r'], [], false, false⟩, 3⟩,
    ⟨.comment ['c'], 4⟩,
    ⟨.tag [] ⟨['d', 'i', 'V'], [], true, false⟩, 5⟩,
    ⟨.tag [] ⟨['p'], [], false, true⟩, 6⟩,
    ⟨.tag [] ⟨['D', 'I', 'V'], [], true, false⟩, 7⟩]

theorem linear_nestedForest : Node.Linear nestedForest nestedTokens := by
  have hinner : Node.Linear [.element ['b', 'r'] [] [], .comment ['c']]
      [⟨.tag [] ⟨['b', 'r'], [], false, false⟩, 3⟩, ⟨.comment ['c'], 4⟩] :=
    .single 3 (.childless [] [] false (by decide) (by decide +kernel)) (.single 4 (.comment _) .nil)
  have hlast : Node.Linear [.element ['p'] [] []] [⟨.tag [] ⟨['p'], [], false, true⟩, 6⟩] :=
    .single 6 (.selfClosing [] [] (by decide)) .nil
  have hnext := Node.Linear.element [(['i', 'd'], .flag)] [] [] [] false 2 5
    (by decide : ['D', 'i', 'v'] ≠ []) (by decide +kernel)
    (by decide +kernel : Text.lower ['d', 'i', 'V'] = Text.lower ['D', 'i', 'v']) hinner hlast
  exact .element [] [] [] [] false 0 7 (by decide) (by decide +kernel) (by decide +kernel)
    (.single 1 (.text _) hnext) .nil

theorem forests_rebuild_nestedForest :
    Node.ProperAll nestedForest ∧ Node.Named nestedForest ∧ Node.Linear nestedForest nestedTokens ∧
      build true nestedTokens = ⟨true, nestedForest, [], []⟩ := by
  have hproper : Node.ProperAll nestedForest := by
    simp [nestedForest, Node.ProperAll, Node.Proper]
    decide +kernel
  have hnamed : Node.Named nestedForest := by
    intro name attributes hmem
    simp [nestedForest] at hmem
    rcases hmem with h | h | h | h <;> simp [h]
  have hrebuilds := forests_rebuild.1 nestedForest hproper hnamed
  exact ⟨hproper, hnamed, linear_nestedForest, hrebuilds.built nestedTokens linear_nestedForest true⟩

end MarkupTemplate
