import MarkupTemplate.Proofs.OpenPath
import MarkupTemplate.Proofs.SampleDigits
import MarkupTemplate.Proofs.ScanPrefix
import MarkupTemplate.Proofs.ShapePreservation
import MarkupTemplate.Proofs.StackDepth

/-!
# Deep random templates

An end tag with a bracket right before it is no end tag: both are read as one tag without a name, and
that is text. A random template can be made of start tags and such texts alone. None of its elements is
ever closed, so they all stand inside one another, and the template compiles.
-/

namespace MarkupTemplate

inductive Part
  | opening
  | stray
deriving DecidableEq

namespace Part

def source : Part → Text
  | opening => "<div id>".toList
  | stray => "<</div>".toList

def event : Part → Event
  | opening => .enter "div".toList [("id".toList, .flag)]
  | stray => .text "<</div>".toList

def piece (part : Part) : Piece :=
  ⟨.tag part.source (.read part.source), part.source, none⟩

/-- The tree that parts build. What follows a start tag stands inside its element. -/
def tree : List Part → List Node
  | [] => []
  | opening :: parts => [.element "div".toList [("id".toList, .flag)] (tree parts)]
  | stray :: parts => .text "<</div>".toList :: tree parts

theorem event_piece (part : Part) : part.piece.lexeme.event = part.event := by
  cases part <;> decide +kernel

theorem step_source (part : Part) (rest : Text) : ∃ c s, part.source ++ rest = c :: s ∧
    Scan.step .content c s = ⟨part.piece, rest, .content⟩ := by
  cases part with
  | opening => exact ⟨'<', "div id>".toList ++ rest, rfl, rfl⟩
  | stray => exact ⟨'<', "</div>".toList ++ rest, rfl, rfl⟩

def sourceOf (parts : List Part) : Text :=
  parts.flatMap source

theorem pieces_sourceOf (parts : List Part) : Scan.pieces (sourceOf parts) = parts.map piece := by
  induction parts with
  | nil => exact Scan.piecesFrom_nil .content
  | cons part parts ih =>
    obtain ⟨c, s, hsource, hstep⟩ := part.step_source (sourceOf parts)
    have hcons : sourceOf (part :: parts) = c :: s := hsource
    rw [hcons, Scan.pieces, Scan.piecesFrom_cons, hstep]
    exact congrArg (part.piece :: ·) ih

theorem cuts_sourceOf (parts : List Part) : Scan.cuts (sourceOf parts) = [] := by
  have hcomplete : ∀ p ∈ parts.map piece, p.cut = none := by
    intro p hp
    obtain ⟨part, -, rfl⟩ := List.mem_map.1 hp
    rfl
  have hcuts := Scan.cutsFrom_append_of_complete hcomplete 0 []
  rw [List.append_nil, ← pieces_sourceOf] at hcuts
  exact hcuts

theorem document_performAll (builder : Builder) (parts : List Part) :
    (builder.performAll (parts.map event)).document = (builder.appendAll (tree parts)).document := by
  induction parts generalizing builder with
  | nil => rfl
  | cons part parts ih =>
    refine (ih (builder.perform part.event)).trans ?_
    cases part with
    | opening =>
      rw [← Builder.document_leave]
      refine congrArg Builder.document ?_
      change ((builder.enter "div".toList [("id".toList, .flag)]).appendAll (tree parts)).leave = _
      rw [Builder.appendAll_cons_path rfl]
      simp [Builder.leave, Builder.enter, OpenElement.close, tree, Builder.appendAll]
    | stray => rfl

theorem documentOf_sourceOf (parts : List Part) :
    documentOf (tokenize (sourceOf parts)) = tree parts := by
  have hlexemes : (tokenize (sourceOf parts)).map (·.lexeme) = parts.map (·.piece.lexeme) := by
    rw [lexemes_tokenize, pieces_sourceOf, List.map_map]
    rfl
  have hevents : (tokenize (sourceOf parts)).map (·.lexeme.event) = parts.map event := by
    have h := congrArg (List.map Lexeme.event) hlexemes
    rw [List.map_map, List.map_map] at h
    exact h.trans (List.map_congr_left fun part _ => part.event_piece)
  have hends : ∀ token ∈ tokenize (sourceOf parts), token.lexeme.isAssetEnd = false := by
    intro token ht
    have hmem := List.mem_map_of_mem (f := (·.lexeme)) ht
    rw [hlexemes] at hmem
    obtain ⟨part, -, hpart⟩ := List.mem_map.1 hmem
    rw [← hpart]
    cases part <;> decide +kernel
  rw [documentOf_eq hends, hevents, document_performAll, Builder.appendAll_nil_path rfl]
  rfl

theorem depthAll_tree (parts : List Part) : Node.depthAll (tree parts) = parts.count .opening := by
  induction parts with
  | nil => rfl
  | cons part parts ih =>
    cases part with
    | opening => simp [tree, Node.depthAll, Node.depth, ih]
    | stray => simp [tree, Node.depthAll, Node.depth, ih]

theorem isChildless_div : isChildless "div".toList = false := by
  decide +kernel

theorem properAll_tree (parts : List Part) : Node.ProperAll (tree parts) := by
  induction parts with
  | nil => trivial
  | cons part parts ih =>
    cases part with
    | opening => exact ⟨⟨fun h => absurd (isChildless_div.symm.trans h) Bool.false_ne_true, ih⟩, trivial⟩
    | stray => exact ⟨trivial, ih⟩

theorem plain_event (part : Part) : part.event.Plain := by
  cases part with
  | opening =>
    refine ⟨⟨by decide, Text.forall_of_all (by decide +kernel)⟩, ?_⟩
    decide +kernel
  | stray =>
    change hasMarker "<</div>".toList = false
    decide +kernel

theorem plain_eventsAll_tree (parts : List Part) : ∀ e ∈ Node.eventsAll (tree parts), e.Plain := by
  induction parts with
  | nil => simp [tree, Node.eventsAll]
  | cons part parts ih =>
    intro e he
    have hpart := part.plain_event
    cases part with
    | opening =>
      simp only [tree, Node.eventsAll, Node.events, isChildless_div, List.append_nil] at he
      rcases List.mem_append.1 he with he | he
      · rcases List.mem_cons.1 he with rfl | he
        · exact hpart
        · exact ih e he
      · cases List.mem_singleton.1 he
        trivial
    | stray =>
      rcases List.mem_cons.1 he with rfl | he
      · exact hpart
      · exact ih e he

theorem compileText_sourceOf (strict injectAssets : Bool) (parts : List Part) :
    ∃ output, compileText strict injectAssets (sourceOf parts) = .ok output := by
  obtain ⟨page, hpage, -⟩ := renderAll_plain (tree parts) (properAll_tree parts)
    (plain_eventsAll_tree parts)
  rw [← documentOf_sourceOf] at hpage
  exact ⟨_, compileText_of_renderAll (cuts_sourceOf parts) hpage strict injectAssets⟩

end Part

namespace Sample

open Draw

def layers : Nat → List Part
  | 0 => []
  | levels + 1 => .opening :: (layers levels ++ layers levels ++ [.stray])

theorem count_layers (levels : Nat) : (layers levels).count .opening + 1 = 2 ^ levels := by
  induction levels with
  | zero => rfl
  | succ levels ih =>
    rw [pow_succ, ← ih]
    simp [layers]
    omega

theorem sourceOf_layers (levels : Nat) :
    Part.sourceOf (layers (levels + 1)) = "<div id>".toList ++
      (Part.sourceOf (layers levels) ++ Part.sourceOf (layers levels) ++ "<</div>".toList) := by
  rw [layers, Part.sourceOf, List.flatMap_cons, List.flatMap_append, List.flatMap_append,
    List.flatMap_singleton]
  rfl

theorem reaches_writtenAttribute : writtenAttribute.Reaches "id".toList := by
  obtain ⟨w, hw⟩ := (@ensures_word 1 8 (by decide) (by decide)).exists_reaches
  obtain ⟨c, hc⟩ := ensures_special.exists_reaches
  obtain ⟨value, hvalue⟩ := (ensures_attributeValue "id".toList).exists_reaches
  refine reaches_bind_iff.2 ⟨w, hw, reaches_bind_iff.2 ⟨c, hc, ?_⟩⟩
  refine reaches_bind_iff.2 ⟨_, reaches_pick (List.mem_append_left _ List.mem_cons_self), ?_⟩
  refine reaches_bind_iff.2 ⟨value, hvalue, reaches_bind_iff.2 ⟨3, reaches_number (by decide), ?_⟩⟩
  exact reaches_pure_iff.2 rfl

theorem reaches_text_nil : text.Reaches [] := by
  have hword : (word 0 40).Reaches [] := by
    refine reaches_bind_iff.2 ⟨0, reaches_between (Nat.le_refl 0) (Nat.zero_le _), ?_⟩
    exact reaches_bind_iff.2 ⟨[], .done [], reaches_pure_iff.2 rfl⟩
  obtain ⟨c, hc⟩ := ensures_special.exists_reaches
  refine reaches_bind_iff.2 ⟨[], hword, reaches_bind_iff.2 ⟨c, hc, ?_⟩⟩
  refine reaches_bind_iff.2 ⟨1, reaches_between (by decide) (by decide), ?_⟩
  exact reaches_pick List.mem_cons_self

theorem reaches_text_bracket : text.Reaches ['<'] := by
  obtain ⟨w, hw⟩ := (@ensures_word 0 40 (by decide) (by decide)).exists_reaches
  refine reaches_bind_iff.2 ⟨w, hw, reaches_bind_iff.2 ⟨['<'], reaches_pick List.mem_cons_self, ?_⟩⟩
  refine reaches_bind_iff.2 ⟨1, reaches_between (by decide) (by decide), ?_⟩
  exact reaches_pick (by simp)

theorem reaches_nested_bracket (levels : Nat) : (nested levels).Reaches ['<'] := by
  cases levels with
  | zero => exact reaches_text_bracket
  | succ levels =>
    exact reaches_bind_iff.2 ⟨true, reaches_chance (by decide) (by decide) true, reaches_text_bracket⟩

theorem reaches_nested_layers (levels : Nat) :
    (nested levels).Reaches (Part.sourceOf (layers levels)) := by
  induction levels with
  | zero =>
    have hnil : Part.sourceOf (layers 0) = [] := rfl
    rw [hnil, nested]
    exact reaches_text_nil
  | succ levels ih =>
    have hdiv : "div".toList ∈ tags := List.mem_cons_self
    have hchildren : (times 3 (nested levels)).Reaches
        [Part.sourceOf (layers levels), Part.sourceOf (layers levels), ['<']] := by
      refine reaches_times_iff.2 ⟨rfl, ?_⟩
      simp [ih, reaches_nested_bracket]
    refine reaches_bind_iff.2 ⟨false, reaches_chance (by decide) (by decide) false, ?_⟩
    refine reaches_bind_iff.2 ⟨_, reaches_pick hdiv, ?_⟩
    refine reaches_bind_iff.2 ⟨3, reaches_between (by decide) (by decide), ?_⟩
    refine reaches_bind_iff.2 ⟨_, hchildren, ?_⟩
    refine reaches_bind_iff.2 ⟨_, reaches_writtenAttribute, reaches_pure_iff.2 ?_⟩
    rw [sourceOf_layers]
    generalize Part.sourceOf (layers levels) = inner
    simp

theorem reaches_piece {x : Draw Text} {s : Text} (hx : x ∈ pieces) (h : x.Reaches s) :
    piece.Reaches s := by
  obtain ⟨i, hi, rfl⟩ := List.getElem_of_mem hx
  refine reaches_bind_iff.2 ⟨i, reaches_number hi, ?_⟩
  rwa [List.getD_eq_getElem _ _ hi]

def deepParts (count : Nat) : List Part :=
  (List.replicate count (layers 6)).flatten

theorem reaches_template_deepParts {count : Nat} (hpos : 1 ≤ count) (hcount : count ≤ 20) :
    template.Reaches (Part.sourceOf (deepParts count)) := by
  have hnested : nested 6 ∈ pieces :=
    List.mem_flatMap.2 ⟨(8, nested 6), by simp, List.mem_replicate.2 ⟨by decide, rfl⟩⟩
  have hpiece : piece.Reaches (Part.sourceOf (layers 6)) :=
    reaches_piece hnested (reaches_nested_layers 6)
  have hparts : (times count piece).Reaches (List.replicate count (Part.sourceOf (layers 6))) := by
    refine reaches_times_iff.2 ⟨List.length_replicate, fun part hpart => ?_⟩
    rwa [List.eq_of_mem_replicate hpart]
  have hsource : Part.sourceOf (deepParts count) =
      (List.replicate count (Part.sourceOf (layers 6))).flatten := by
    rw [Part.sourceOf, deepParts, List.flatMap_def, List.map_flatten, List.flatten_flatten, List.map_map,
      List.map_replicate]
    rfl
  refine reaches_bind_iff.2 ⟨false, reaches_chance (by decide) (by decide) false, ?_⟩
  refine reaches_bind_iff.2 ⟨count, reaches_between hpos hcount, ?_⟩
  refine reaches_bind_iff.2 ⟨_, hparts, ?_⟩
  refine reaches_bind_iff.2 ⟨false, reaches_chance (by decide) (by decide) false, reaches_pure_iff.2 ?_⟩
  rw [hsource]
  exact (List.append_nil _).symm

theorem depthAll_deepParts (count : Nat) :
    Node.depthAll (documentOf (tokenize (Part.sourceOf (deepParts count)))) = count * 63 := by
  have hlayers := count_layers 6
  have hcount : (layers 6).count .opening = 63 := by omega
  rw [Part.documentOf_sourceOf, Part.depthAll_tree, deepParts, List.count_flatten, List.map_replicate,
    List.sum_replicate, smul_eq_mul, hcount]

end Sample

end MarkupTemplate
