import MarkupTemplate.Proofs.OpenPath
import MarkupTemplate.Proofs.Outcome
import MarkupTemplate.Session

/-!
# The assets of a page in document order

Each load element of a tree declares one asset, and rendering collects the declarations in the order in
which the elements stand in the document, whatever is around them. Where rendering fails, the elements
before that point have declared theirs and the others have not. In the page a load element leaves nothing:
the page of a tree is the page of the tree without its load elements.
-/

namespace MarkupTemplate

namespace Node

def Label.isLoad : Label → Bool
  | .element name _ => MarkupTemplate.isLoad name
  | _ => false

inductive Label.Declares : Label → Declaration → Prop
  | load {name : Text} {attributes : Attributes} {d : Declaration}
      (h : Render.load name attributes = .ok d) : Declares (.element name attributes) d

def loads (nodes : List Node) : List Label :=
  (labelsAll nodes).filter Label.isLoad

mutual

def withoutLoads : Node → List Node
  | .element name attributes children =>
    if MarkupTemplate.isLoad name then [] else [.element name attributes (withoutLoadsAll children)]
  | .text data => [.text data]
  | .comment data => [.comment data]
  | .code data => [.code data]

def withoutLoadsAll : List Node → List Node
  | [] => []
  | node :: nodes => withoutLoads node ++ withoutLoadsAll nodes

end

theorem loads_cons (node : Node) (nodes : List Node) :
    loads (node :: nodes) = node.labels.filter Label.isLoad ++ loads nodes := by
  simp [loads]

theorem listingAll_append (depth : Nat) (a b : List Node) :
    listingAll depth (a ++ b) = listingAll depth a ++ listingAll depth b := by
  induction a with
  | nil => rfl
  | cons node a ih => simp [listingAll, ih]

mutual

theorem listing_withoutLoads (depth : Nat) : ∀ node : Node, node.Proper →
    listingAll depth node.withoutLoads =
      (listing depth node).filter fun (_, label) => !label.isLoad
  | .text _, _ | .comment _, _ | .code _, _ => by simp [withoutLoads, listingAll, listing, Label.isLoad]
  | .element name attributes children, h => by
    rw [withoutLoads, listing]
    by_cases hload : MarkupTemplate.isLoad name = true
    · have hchildren : children = [] := h.1 (by simp [isChildless, hload])
      simp [hload, hchildren, listingAll, Label.isLoad]
    · have hinner := listingAll_withoutLoadsAll (depth + 1) children h.2
      simp [hload, listingAll, listing, Label.isLoad, hinner]

theorem listingAll_withoutLoadsAll (depth : Nat) : ∀ nodes : List Node, ProperAll nodes →
    listingAll depth (withoutLoadsAll nodes) =
      (listingAll depth nodes).filter fun (_, label) => !label.isLoad
  | [], _ => rfl
  | node :: nodes, h => by
    rw [withoutLoadsAll, listingAll_append, listingAll, List.filter_append,
      listing_withoutLoads depth node h.1, listingAll_withoutLoadsAll depth nodes h.2]

end

end Node

open Node (loads)
open Node.Label (Declares)

/-- What is rendered has collected the declarations of a first part of `loads`, and of all of them if it
succeeds. -/
def Rendered.Collects {α : Type} (loads : List Node.Label) (rendered : Rendered α) : Prop :=
  ∃ done, done <+: loads ∧ List.Forall₂ Declares done rendered.declared ∧
    ∀ a, rendered.outcome = .ok a → done = loads

namespace Rendered.Collects

variable {α β : Type} {first second : List Node.Label} {x : Rendered α} {f : α → Rendered β}

theorem exists_declares {d : Declaration} (h : x.Collects first) (hd : d ∈ x.declared) :
    ∃ label ∈ first, label.Declares d := by
  obtain ⟨done, hdone, hdeclares, -⟩ := h
  obtain ⟨i, hi, rfl⟩ := List.getElem_of_mem hd
  have hi' : i < done.length := hdeclares.length_eq ▸ hi
  exact ⟨done[i], hdone.subset (List.getElem_mem hi'), hdeclares.get hi' hi⟩

theorem of_declared_nil (h : x.declared = []) : Collects [] x :=
  ⟨[], List.prefix_rfl, by simp [h], fun _ _ => rfl⟩

theorem bind (hx : Collects first x) (hf : ∀ a, x.outcome = .ok a → Collects second (f a)) :
    Collects (first ++ second) (x.bind f) := by
  obtain ⟨done, hdone, hdeclared, hall⟩ := hx
  cases ho : x.outcome with
  | error e =>
    refine ⟨done, hdone.trans (List.prefix_append _ _), ?_, fun b hb => ?_⟩
    · simpa [Rendered.bind, ho] using hdeclared
    · simp [Rendered.bind, ho] at hb
  | ok a =>
    obtain ⟨later, hlater, hdeclares, hrest⟩ := hf a ho
    rw [hall a ho] at hdeclared
    refine ⟨first ++ later, (List.prefix_append_right_inj first).2 hlater, ?_, fun b hb => ?_⟩
    · simpa [Rendered.bind, ho] using List.rel_append hdeclared hdeclares
    · have hb' : (f a).outcome = .ok b := by simpa [Rendered.bind, ho] using hb
      rw [hrest b hb']

end Rendered.Collects

namespace Render

theorem collects_element (name : Text) (attributes : Attributes) (inner : Page) :
    (element name attributes inner).Collects
      (if isLoad name then [.element name attributes] else []) := by
  unfold element
  split_ifs with hload
  · split
    · next d hd =>
      exact ⟨_, List.prefix_rfl, .cons (.load hd) .nil, fun _ _ => rfl⟩
    · exact ⟨[], List.nil_prefix, .nil, fun _ h => by cases h⟩
  all_goals exact .of_declared_nil rfl

mutual

theorem collects_render : ∀ node : Node, node.Proper →
    (render node).Collects (node.labels.filter Node.Label.isLoad)
  | .text _, _ | .comment _, _ | .code _, _ => .of_declared_nil rfl
  | .element name attributes children, h => by
    rw [render_element]
    split_ifs with hleaf
    · exact ⟨[], List.nil_prefix, .nil, fun _ h => by cases h⟩
    · have hlabels : (Node.element name attributes children).labels.filter Node.Label.isLoad =
          loads children ++ if isLoad name then [.element name attributes] else [] := by
        by_cases hload : isLoad name = true
        · have hchildren : children = [] := h.1 (by simp [isChildless, hload])
          simp [hchildren, loads, Node.Label.isLoad, hload]
        · simp [loads, Node.Label.isLoad, hload]
      rw [hlabels]
      exact (collects_renderAll children h.2).bind fun inner _ => collects_element name attributes inner

theorem collects_renderAll : ∀ nodes : List Node, Node.ProperAll nodes →
    (renderAll nodes).Collects (loads nodes)
  | [], _ => .of_declared_nil rfl
  | node :: nodes, h => by
    rw [renderAll_cons, Node.loads_cons]
    refine (collects_render node h.1).bind fun page _ => ?_
    have hrest := (collects_renderAll nodes h.2).bind (f := fun rest => .pure (page ++ rest))
      fun rest _ => .of_declared_nil rfl
    rwa [List.append_nil] at hrest

end

theorem outcome_renderAll_append {a b : List Node} {first last : Page}
    (ha : (renderAll a).outcome = .ok first) (hb : (renderAll b).outcome = .ok last) :
    (renderAll (a ++ b)).outcome = .ok (first ++ last) := by
  induction a generalizing first with
  | nil =>
    rw [renderAll_nil] at ha
    cases ha
    exact hb
  | cons node a ih =>
    rw [renderAll_cons] at ha
    obtain ⟨page, hpage, ha⟩ := Rendered.outcome_bind_eq_ok_iff.1 ha
    obtain ⟨rest, hrest, ha⟩ := Rendered.outcome_bind_eq_ok_iff.1 ha
    cases ha
    rw [List.cons_append, renderAll_cons, List.append_assoc]
    refine Rendered.outcome_bind_eq_ok_iff.2 ⟨page, hpage, ?_⟩
    exact Rendered.outcome_bind_eq_ok_iff.2 ⟨rest ++ last, ih hrest, rfl⟩

theorem outcome_renderAll_singleton {node : Node} {page : Page}
    (h : (render node).outcome = .ok page) : (renderAll [node]).outcome = .ok page := by
  rw [renderAll_cons]
  refine Rendered.outcome_bind_eq_ok_iff.2 ⟨page, h, ?_⟩
  simp [renderAll_nil, Rendered.bind, Rendered.pure]

mutual

theorem outcome_withoutLoads : ∀ (node : Node) (page : Page), (render node).outcome = .ok page →
    (renderAll node.withoutLoads).outcome = .ok page
  | .text _, _, h | .comment _, _, h | .code _, _, h => outcome_renderAll_singleton h
  | .element name attributes children, page, h => by
    rw [render_element] at h
    split at h
    · cases h
    · next hleaf =>
      obtain ⟨inner, hinner, hpage⟩ := Rendered.outcome_bind_eq_ok_iff.1 h
      rw [Node.withoutLoads]
      split_ifs with hload
      · -- a load element that succeeds leaves the empty page
        unfold element at hpage
        rw [if_pos hload] at hpage
        split at hpage <;> cases hpage
        rfl
      · refine outcome_renderAll_singleton ?_
        rw [render_element, if_neg hleaf]
        exact Rendered.outcome_bind_eq_ok_iff.2
          ⟨inner, outcome_withoutLoadsAll children inner hinner, hpage⟩

theorem outcome_withoutLoadsAll : ∀ (nodes : List Node) (page : Page),
    (renderAll nodes).outcome = .ok page →
    (renderAll (Node.withoutLoadsAll nodes)).outcome = .ok page
  | [], _, h => h
  | node :: nodes, page, h => by
    rw [renderAll_cons] at h
    obtain ⟨first, hfirst, h⟩ := Rendered.outcome_bind_eq_ok_iff.1 h
    obtain ⟨last, hlast, h⟩ := Rendered.outcome_bind_eq_ok_iff.1 h
    cases h
    rw [Node.withoutLoadsAll]
    exact outcome_renderAll_append (outcome_withoutLoads node first hfirst)
      (outcome_withoutLoadsAll nodes last hlast)

end

end Render

namespace Assets

def numbered (first : Nat) (ds : List Declaration) : Assets :=
  (ds.zipIdx first).map fun (d, sequence) => ⟨d, sequence⟩

def Numbered (assets : Assets) : Prop :=
  ∀ (i : Nat) (asset : Asset), assets[i]? = some asset → asset.sequence = i

theorem addAll_eq (assets : Assets) (ds : List Declaration) :
    assets.addAll ds = assets ++ numbered assets.length ds := by
  induction ds generalizing assets with
  | nil => simp [addAll, numbered]
  | cons d ds ih =>
    have hrest := ih (assets.add d)
    simp only [addAll, List.foldl_cons] at hrest ⊢
    rw [hrest]
    simp [add, numbered]

theorem Numbered.append {assets : Assets} (h : assets.Numbered) (ds : List Declaration) :
    Numbered (assets ++ numbered assets.length ds) := by
  intro i asset hasset
  rcases Nat.lt_or_ge i assets.length with hi | hi
  · rw [List.getElem?_append_left hi] at hasset
    exact h i asset hasset
  · rw [List.getElem?_append_right hi] at hasset
    simp only [numbered, List.getElem?_map, List.getElem?_zipIdx, Option.map_map,
      Option.map_eq_some_iff] at hasset
    obtain ⟨d, -, rfl⟩ := hasset
    simp only [Function.comp_apply]
    omega

end Assets

/-- What rendering a document in a session collects, and what it leaves in the text. -/
structure Session.CollectsLoads (session : Session) (document : Document) : Prop where
  succeeds : ∀ text, (session.render document).outcome = .ok text →
    (∃ ds, List.Forall₂ Declares (loads document) ds ∧
      (session.render document).session.assets =
        session.assets ++ Assets.numbered session.assets.length ds) ∧
    (session.render (Node.withoutLoadsAll document)).outcome = .ok text
  fails : ∀ failure, (session.render document).outcome = .error failure →
    ∃ done ds, done <+: loads document ∧ List.Forall₂ Declares done ds ∧
      (session.render document).session.assets =
        session.assets ++ Assets.numbered session.assets.length ds
  numbers : session.assets.Numbered → (session.render document).session.assets.Numbered
  deletes : Document.listing (Node.withoutLoadsAll document) =
    (Document.listing document).filter fun (_, label) => !label.isLoad

namespace Session

theorem assets_render (session : Session) (document : Document) :
    (session.render document).session.assets =
      session.assets ++ Assets.numbered session.assets.length (renderAll document).declared := by
  rw [← Assets.addAll_eq]
  cases h : (renderAll document).outcome <;> simp [render, receive, h]

theorem outcome_render (session : Session) (document : Document) :
    (session.render document).outcome = (renderAll document).outcome.map Page.text := by
  cases h : (renderAll document).outcome <;> simp [render, receive, h, Except.map]

theorem collectsLoads_of_proper (session : Session) {document : Document}
    (h : Node.ProperAll document) : session.CollectsLoads document := by
  obtain ⟨done, hdone, hdeclares, hall⟩ := Render.collects_renderAll document h
  have hassets := session.assets_render document
  refine ⟨fun text htext => ?_, fun failure _ => ?_, fun hnumbered => ?_, ?_⟩
  · rw [outcome_render] at htext
    obtain ⟨page, hpage, rfl⟩ := map_eq_ok_iff.1 htext
    refine ⟨⟨_, hall page hpage ▸ hdeclares, hassets⟩, ?_⟩
    rw [outcome_render, Render.outcome_withoutLoadsAll document page hpage]
    rfl
  · exact ⟨done, _, hdone, hdeclares, hassets⟩
  · rw [hassets]
    exact hnumbered.append _
  · exact Node.listingAll_withoutLoadsAll 0 document h

end Session

/-- In any session, the load elements of a source are collected in document order, all of them or up to
where rendering fails, and the text is the same without them. -/
theorem render_collectsLoads (session : Session) (source : Text) :
    session.CollectsLoads (documentOf (tokenize source)) :=
  session.collectsLoads_of_proper (Builder.proper_build false (tokenize source)).roots

end MarkupTemplate
