import MarkupTemplate.Proofs.LoadOrder
import MarkupTemplate.Proofs.UnbrokenBlocks

/-!
# Injection as two insertions

The lines for the body go into a page that already has the lines for the head, and their place is looked
for there. It is the place that the page itself has for them, moved along by the lines before it: no
closing body tag begins in the lines of an asset, and none of the page is lost. So the page comes back
when the lines are taken out again, and each declaration is either among the lines or counted as dropped.
-/

namespace MarkupTemplate

namespace Injection

def putIn (place : Option Nat) (t s : Text) : Text :=
  place.elim s fun k => s.take k ++ t ++ s.drop k

def takeOut (place : Option Nat) (length : Nat) (s : Text) : Text :=
  place.elim s fun k => s.take k ++ s.drop (k + length)

variable {name s : Text}

theorem takeOut_putIn {place : Option Nat} (h : ∀ k ∈ place, k ≤ s.length) (t : Text) :
    takeOut place t.length (putIn place t s) = s := by
  cases place with
  | none => rfl
  | some k =>
    have hk : (s.take k).length = k := List.length_take_of_le (h k rfl)
    have hassoc : putIn (some k) t s = s.take k ++ (t ++ s.drop k) := List.append_assoc _ _ _
    have htake : (putIn (some k) t s).take k = s.take k := by
      rw [hassoc]
      exact List.take_left' hk
    have hdrop : (putIn (some k) t s).drop (k + t.length) = s.drop k := by
      rw [hassoc, ← List.append_assoc]
      exact List.drop_left' (by rw [List.length_append, hk])
    change (putIn (some k) t s).take k ++ (putIn (some k) t s).drop (k + t.length) = s
    rw [htake, hdrop, List.take_append_drop]

theorem lt_of_place? {k : Nat} (h : place? name s = some k) : k < s.length := by
  obtain ⟨before, rest, rfl, rfl, hrest⟩ := exists_of_place? h
  have := List.length_pos_iff.2 (ne_nil_of_closesHere hrest)
  rw [List.length_append]
  omega

theorem text_insert (name : Text) (lines : List Text) (s : Text) :
    (insert name lines s).text = putIn (place? name s) (linesText lines) s := by
  cases h : place? name s with
  | none => exact text_insert_of_none h lines
  | some k =>
    obtain ⟨before, rest, rfl, rfl, -⟩ := exists_of_place? h
    rw [text_insert_of_some h]
    simp [putIn]

theorem dropped_insert (name : Text) (lines : List Text) (s : Text) :
    (insert name lines s).dropped = if (place? name s).isSome then 0 else lines.length := by
  cases lines with
  | nil => simp [insert]
  | cons line lines => cases h : place? name s <;> simp [insert, insertBefore?, splitAtClosing?_eq, h]

theorem closesHere_drop {j : Nat} (h : ∀ k ∈ place? name s, j < k) :
    closesHere name (s.drop j) = false := by
  induction s generalizing j with
  | nil =>
    rw [List.drop_nil]
    rfl
  | cons c s ih =>
    rw [place?_cons] at h
    by_cases hc : closesHere name (c :: s) = true
    · rw [if_pos hc] at h
      exact absurd (h 0 rfl) (Nat.not_lt_zero j)
    · rw [if_neg hc] at h
      cases j with
      | zero => simpa using hc
      | succ j =>
        rw [List.drop_succ_cons]
        refine ih fun k hk => ?_
        have := h (k + 1) (Option.map_eq_some_iff.2 ⟨k, hk, rfl⟩)
        omega

def moved (inserted : Option Nat) (length k : Nat) : Nat :=
  if inserted.any (· ≤ k) then k + length else k

end Injection

namespace Assets

open Injection

def headPage (assets : Assets) (page : Text) : Text :=
  putIn (place? headTag page) (linesText assets.headLines) page

theorem place?_headPage (assets : Assets) (page : Text) :
    place? bodyTag (assets.headPage page) =
      (place? bodyTag page).map (moved (place? headTag page) (linesText assets.headLines).length) := by
  cases hhead : place? headTag page with
  | none =>
    have hmoved : moved none (linesText assets.headLines).length = id := rfl
    rw [headPage, hhead, hmoved, Option.map_id]
    rfl
  | some h =>
    obtain ⟨before, rest, rfl, rfl, hrest⟩ := exists_of_place? hhead
    have hpage : assets.headPage (before ++ rest) =
        before ++ (linesText assets.headLines ++ rest) := by
      simp [headPage, putIn, hhead]
    rw [hpage]
    rcases assets.place?_body_cases before hrest with ⟨k, hk, hwith, hbody⟩ | ⟨hwith, hbody⟩
    · rw [hwith, hbody]
      simp [moved, hk]
    · rw [hwith, hbody, Option.map_map]
      refine Option.map_congr fun k _ => ?_
      simp [moved, Nat.add_right_comm]

theorem text_insert_head (assets : Assets) (page : Text) :
    (insert headTag assets.headLines page).text = assets.headPage page :=
  text_insert headTag assets.headLines page

theorem text_inject_eq (assets : Assets) (page : Text) :
    (assets.inject page).text =
      putIn (place? bodyTag (assets.headPage page)) (linesText assets.bodyLines)
        (assets.headPage page) := by
  rw [← text_insert_head, ← text_insert]
  rfl

theorem dropped_inject (assets : Assets) (page : Text) :
    (assets.inject page).dropped =
      (if (place? headTag page).isSome then 0 else assets.headLines.length) +
        if (place? bodyTag page).isSome then 0 else assets.bodyLines.length := by
  have hbody : (place? bodyTag (assets.headPage page)).isSome = (place? bodyTag page).isSome := by
    rw [place?_headPage, Option.isSome_map]
  rw [← hbody, ← text_insert_head, ← dropped_insert, ← dropped_insert]
  rfl

theorem closesHere_headPage {assets : Assets} {page : Text} {h j : Nat}
    (hhead : place? headTag page = some h) (hj : h ≤ j)
    (hlines : j < h + (linesText assets.headLines).length) :
    closesHere bodyTag ((assets.headPage page).drop j) = false := by
  obtain ⟨before, rest, rfl, rfl, -⟩ := exists_of_place? hhead
  obtain ⟨i, rfl⟩ := Nat.exists_eq_add_of_le hj
  have hpage : (assets.headPage (before ++ rest)).drop (before.length + i) =
      (linesText assets.headLines ++ rest).drop i := by
    simp [headPage, putIn, hhead]
  rw [hpage]
  refine closesHere_drop fun k hk => ?_
  rw [place?_linesText assets.exists_of_mem_headLines] at hk
  obtain ⟨k, -, rfl⟩ := Option.map_eq_some_iff.1 hk
  omega

def Slotted (assets : Assets) : Prop :=
  ∀ asset ∈ assets, asset.declaration.kind = .js →
    asset.declaration.slot = some Declaration.headSlot ∨
      asset.declaration.slot = some Declaration.bodySlot

theorem length_sorted (assets : Assets) : (sorted assets).length = assets.length :=
  List.length_mergeSort _

theorem length_filters {assets : Assets} (h : assets.Slotted) :
    (assets.filter fun a => a.declaration.kind = .css).length +
      (assets.filter fun a =>
        a.declaration.kind = .js ∧ a.declaration.slot = some Declaration.headSlot).length +
      (assets.filter fun a =>
        a.declaration.kind = .js ∧ a.declaration.slot = some Declaration.bodySlot).length =
      assets.length := by
  induction assets with
  | nil => rfl
  | cons asset assets ih =>
    have hrest := ih fun a ha => h a (List.mem_cons_of_mem asset ha)
    have hslots : Declaration.headSlot ≠ Declaration.bodySlot := by decide
    cases hk : asset.declaration.kind with
    | css =>
      simp only [List.filter_cons, hk, reduceCtorEq, false_and, decide_true, decide_false,
        Bool.false_eq_true, if_true, if_false, List.length_cons]
      omega
    | js =>
      rcases h asset List.mem_cons_self hk with hs | hs
      · simp only [List.filter_cons, hk, hs, reduceCtorEq, Option.some_inj, hslots, and_true, and_false,
          decide_true, decide_false, Bool.false_eq_true, if_true, if_false, List.length_cons]
        omega
      · simp only [List.filter_cons, hk, hs, reduceCtorEq, Option.some_inj, hslots.symm, and_true,
          and_false, decide_true, decide_false, Bool.false_eq_true, if_true, if_false, List.length_cons]
        omega

theorem tagCount_eq {assets : Assets} (h : assets.Slotted) : assets.tagCount = assets.length := by
  rw [← length_filters h]
  simp only [tagCount, headLines, bodyLines, stylesheets, scripts, List.length_map,
    List.length_append, length_sorted]

def insertedCount (assets : Assets) (page : Text) : Nat :=
  (if (place? headTag page).isSome then assets.headLines.length else 0) +
    if (place? bodyTag page).isSome then assets.bodyLines.length else 0

theorem dropped_add_insertedCount (assets : Assets) (page : Text) :
    (assets.inject page).dropped + assets.insertedCount page = assets.tagCount := by
  rw [dropped_inject, insertedCount, tagCount]
  split_ifs <;> omega

/-- What injecting assets makes of a page: the lines are put in at the first closing tags of the page
itself, the page comes back when those for the body and then those for the head are taken out, and every
declaration is put in or counted as dropped. -/
structure Injected (assets : Assets) (page : Text) (result : Result) : Prop where
  woven : result.text = weave (assets.inserted page) page
  apart : ∀ h j, place? headTag page = some h → h ≤ j →
    j < h + (linesText assets.headLines).length →
    closesHere bodyTag ((assets.headPage page).drop j) = false
  restored : takeOut (place? headTag page) (linesText assets.headLines).length
    (takeOut
      ((place? bodyTag page).map (moved (place? headTag page) (linesText assets.headLines).length))
      (linesText assets.bodyLines).length result.text) = page
  counted : result.dropped + assets.insertedCount page = assets.length

theorem takeOut_inject (assets : Assets) (page : Text) :
    takeOut (place? headTag page) (linesText assets.headLines).length
      (takeOut
        ((place? bodyTag page).map (moved (place? headTag page) (linesText assets.headLines).length))
        (linesText assets.bodyLines).length (assets.inject page).text) = page := by
  have hbody : ∀ k ∈ place? bodyTag (assets.headPage page), k ≤ (assets.headPage page).length :=
    fun k hk => (lt_of_place? hk).le
  have hhead : ∀ k ∈ place? headTag page, k ≤ page.length := fun k hk => (lt_of_place? hk).le
  rw [text_inject_eq, ← place?_headPage, takeOut_putIn hbody, headPage, takeOut_putIn hhead]

end Assets

theorem Node.Label.Declares.slot_eq {label : Node.Label} {d : Declaration} (h : label.Declares d)
    (hk : d.kind = .js) :
    d.slot = some Declaration.headSlot ∨ d.slot = some Declaration.bodySlot := by
  obtain ⟨h⟩ := h
  unfold Render.load at h
  split at h
  · cases h
  · split at h
    · cases h
    · unfold Render.declaration at h
      split at h
      · unfold Render.styleSheet at h
        split at h
        · cases h
        · cases h
          cases hk
      · unfold Render.script at h
        split at h
        · cases h
        · split_ifs at h with hslot
          cases h
          exact hslot.imp (congrArg some) (congrArg some)
      · cases h

theorem slotted_declaredAssets (source : Text) : (declaredAssets source).Slotted := by
  intro asset hasset hk
  have hcollects := Render.collects_renderAll _ (Builder.proper_build false (tokenize source)).roots
  rw [declaredAssets, Assets.addAll_eq, List.nil_append] at hasset
  obtain ⟨⟨d, _⟩, hd, rfl⟩ := List.mem_map.1 hasset
  obtain ⟨label, -, hdeclares⟩ := hcollects.exists_declares (List.fst_mem_of_mem_zipIdx hd)
  exact hdeclares.slot_eq hk

/-- Injecting is two insertions into the page, neither of which sees the other. -/
theorem Assets.injected_inject {assets : Assets} (h : assets.Slotted) (page : Text) :
    Injected assets page (assets.inject page) := by
  refine ⟨assets.text_inject page, fun _ _ => closesHere_headPage, assets.takeOut_inject page, ?_⟩
  rw [dropped_add_insertedCount, tagCount_eq h]

def twoLoads : Text :=
  "<load target=\"b.js\" type=\"Body\"><load target=\"a.css\">".toList

def crossedTags : Text :=
  "<b></BODY </head></body>".toList

def crossedOutput : Text :=
  "<b><script src=\"b.js\"></script>\n</BODY ".toList ++
    "<link rel=\"stylesheet\" href=\"a.css\" media=\"all\">\n</head></body>".toList

theorem Assets.injected_inject_crossedTags :
    ((declaredAssets twoLoads).inject crossedTags).text = crossedOutput ∧
      Assets.Injected (declaredAssets twoLoads) crossedTags
        ((declaredAssets twoLoads).inject crossedTags) := by
  exact ⟨by decide +kernel, Assets.injected_inject (slotted_declaredAssets twoLoads) crossedTags⟩

end MarkupTemplate
