import MarkupTemplate.Proofs.InjectedPage

/-!
# The order of collected assets

Declarations are collected by calls that name the kind of the asset, and a call with an unknown kind changes
nothing. Whatever calls are made, the declarations are numbered from zero on in the order of the calls that
were accepted. The numbers are all different, so the listing order is strict on what was collected: each list
is sorted by index, and by number among equal indexes. The style sheets and the scripts for the head and for
the body are the whole collection, each asset once.
-/

namespace MarkupTemplate

structure Addition where
  kind : Text
  target : Text
  order : Int
  media : Option Text
  slot : Option Text

def Addition.declaration? (call : Addition) : Option Declaration :=
  (AssetKind.ofLabel? call.kind).map fun kind => ⟨kind, call.target, call.order, call.media, call.slot⟩

def Addition.Slotted (call : Addition) : Prop :=
  call.kind = AssetKind.js.label →
    call.slot = some Declaration.headSlot ∨ call.slot = some Declaration.bodySlot

instance (call : Addition) : Decidable call.Slotted :=
  inferInstanceAs (Decidable (_ → _ ∨ _))

theorem AssetKind.ofLabel?_eq_some_iff {s : Text} {kind : AssetKind} :
    AssetKind.ofLabel? s = some kind ↔ s = kind.label := by
  have hlabels : css.label ≠ js.label := by decide
  by_cases hcss : css.label = s
  · cases kind <;> simp [ofLabel?, ← hcss, hlabels]
  · by_cases hjs : js.label = s
    · cases kind <;> simp [ofLabel?, ← hjs, hlabels, hlabels.symm]
    · cases kind <;> simp [ofLabel?, hcss, hjs, Ne.symm hcss, Ne.symm hjs]

def Asset.Before (a b : Asset) : Prop :=
  a.declaration.order < b.declaration.order ∨
    a.declaration.order = b.declaration.order ∧ a.sequence < b.sequence

namespace Assets

def attempt (assets : Assets) (call : Addition) : Assets :=
  match assets.addNamed call.kind call.target call.order call.media call.slot with
  | .ok assets => assets
  | .error _ => assets

def collected (calls : List Addition) : Assets :=
  calls.foldl attempt []

/-- Of two assets in a list the one that comes before the other stands first. -/
def Ordered (assets : Assets) : Prop :=
  ∀ (i j : Nat) (a b : Asset), assets[i]? = some a → assets[j]? = some b → (i < j ↔ a.Before b)

theorem attempt_eq (assets : Assets) (call : Addition) :
    assets.attempt call = assets.addAll call.declaration?.toList := by
  unfold attempt addNamed Addition.declaration?
  cases AssetKind.ofLabel? call.kind <;> rfl

theorem foldl_attempt (assets : Assets) (calls : List Addition) :
    calls.foldl attempt assets = assets.addAll (calls.filterMap Addition.declaration?) := by
  induction calls generalizing assets with
  | nil => rfl
  | cons call calls ih =>
    rw [List.foldl_cons, ih, attempt_eq]
    cases hd : call.declaration? with
    | none => simp [addAll, hd]
    | some d => simp [addAll, hd]

theorem collected_eq (calls : List Addition) :
    collected calls = numbered 0 (calls.filterMap Addition.declaration?) := by
  rw [collected, foldl_attempt, addAll_eq]
  rfl

theorem numbered_collected (calls : List Addition) : (collected calls).Numbered := by
  have hnil : Numbered [] := fun i asset h => by cases h
  rw [collected_eq]
  exact hnil.append (calls.filterMap Addition.declaration?)

theorem Numbered.nodup_sequence {assets : Assets} (h : assets.Numbered) :
    (assets.map Asset.sequence).Nodup := by
  have hrange : assets.map Asset.sequence = List.range assets.length := by
    apply List.ext_getElem
    · simp
    · intro i hmap hlength
      rw [List.length_map] at hmap
      rw [List.getElem_map, List.getElem_range]
      exact h i assets[i] (List.getElem?_eq_getElem hmap)
  rw [hrange]
  exact List.nodup_range

theorem precedes_iff {a b : Asset} : precedes a b = true ↔
    a.declaration.order < b.declaration.order ∨
      a.declaration.order = b.declaration.order ∧ a.sequence ≤ b.sequence := by
  simp [precedes]

theorem pairwise_sorted (assets : Assets) :
    (sorted assets).Pairwise fun a b => precedes a b = true := by
  apply List.pairwise_mergeSort
  · intro a b c hab hbc
    rw [precedes_iff] at hab hbc ⊢
    omega
  · intro a b
    rw [Bool.or_eq_true, precedes_iff, precedes_iff]
    omega

theorem not_before_self (a : Asset) : ¬ a.Before a := by
  unfold Asset.Before
  omega

theorem not_before_of_before {a b : Asset} (h : a.Before b) : ¬ b.Before a := by
  unfold Asset.Before at *
  omega

theorem ordered_of_pairwise {assets : Assets} (h : assets.Pairwise Asset.Before) : assets.Ordered := by
  have hlt : ∀ (i j : Nat) (a b : Asset), assets[i]? = some a → assets[j]? = some b → i < j →
      a.Before b := by
    intro i j a b ha hb hij
    obtain ⟨hi, rfl⟩ := List.getElem?_eq_some_iff.1 ha
    obtain ⟨hj, rfl⟩ := List.getElem?_eq_some_iff.1 hb
    exact List.pairwise_iff_getElem.1 h i j hi hj hij
  intro i j a b ha hb
  refine ⟨hlt i j a b ha hb, fun hbefore => ?_⟩
  rcases Nat.lt_trichotomy i j with hij | rfl | hji
  · exact hij
  · rw [ha, Option.some_inj] at hb
    rw [hb] at hbefore
    exact absurd hbefore (not_before_self b)
  · exact absurd (hlt j i b a hb ha hji) (not_before_of_before hbefore)

theorem ordered_sorted {assets : Assets} (h : (assets.map Asset.sequence).Nodup) :
    (sorted assets).Ordered := by
  have hnodup : (sorted assets).Pairwise fun a b => a.sequence ≠ b.sequence := by
    have hperm : ((sorted assets).map Asset.sequence).Perm (assets.map Asset.sequence) :=
      (List.mergeSort_perm assets precedes).map Asset.sequence
    exact List.pairwise_map.1 (hperm.nodup_iff.2 h)
  apply ordered_of_pairwise
  refine (pairwise_sorted assets).imp₂ (fun a b hprecedes hne => ?_) hnodup
  -- sorting leaves the order of equal numbers open, and no two numbers are equal
  rw [precedes_iff] at hprecedes
  unfold Asset.Before
  omega

theorem ordered_sorted_filter {assets : Assets} (h : assets.Numbered) (p : Asset → Bool) :
    (sorted (assets.filter p)).Ordered := by
  apply ordered_sorted
  exact h.nodup_sequence.sublist (List.filter_sublist.map Asset.sequence)

theorem perm_filters {assets : Assets} {p q r : Asset → Bool}
    (hq : ∀ a ∈ assets, q a = true → p a = false)
    (hr : ∀ a ∈ assets, r a = (!q a && !p a)) :
    (assets.filter p ++ assets.filter q ++ assets.filter r).Perm assets := by
  have hsecond : assets.filter q = (assets.filter (!p ·)).filter q := by
    rw [List.filter_filter]
    apply List.filter_congr
    intro a ha
    cases hqa : q a with
    | false => rfl
    | true => simp [hq a ha hqa]
  have hthird : assets.filter r = (assets.filter (!p ·)).filter (!q ·) := by
    rw [List.filter_filter]
    exact List.filter_congr hr
  rw [List.append_assoc, hsecond, hthird]
  have hothers := List.filter_append_perm q (assets.filter (!p ·))
  exact (hothers.append_left _).trans (List.filter_append_perm p assets)

theorem perm_lists {assets : Assets} (h : assets.Slotted) :
    (assets.stylesheets ++ assets.scripts (some Declaration.headSlot) ++
      assets.scripts (some Declaration.bodySlot)).Perm assets := by
  have hsorted : ∀ l : Assets, (sorted l).Perm l := fun l => List.mergeSort_perm l precedes
  have hslots : Declaration.headSlot ≠ Declaration.bodySlot := by decide
  refine (((hsorted _).append (hsorted _)).append (hsorted _)).trans (perm_filters ?_ ?_)
  · intro a _ hhead
    cases hk : a.declaration.kind with
    | css => simp [hk] at hhead
    | js => simp
  · intro a ha
    cases hk : a.declaration.kind with
    | css => simp
    | js => rcases h a ha hk with hs | hs <;> simp [hs, hslots, hslots.symm]

theorem declarations_numbered (first : Nat) (ds : List Declaration) :
    (numbered first ds).map Asset.declaration = ds := by
  rw [numbered, List.map_map]
  exact List.zipIdx_map_fst first ds

theorem declarations_collected (calls : List Addition) :
    (collected calls).map Asset.declaration = calls.filterMap Addition.declaration? := by
  rw [collected_eq, declarations_numbered]

theorem slotted_collected {calls : List Addition} (h : ∀ call ∈ calls, call.Slotted) :
    (collected calls).Slotted := by
  intro asset hasset hjs
  have hdeclared := List.mem_map_of_mem (f := Asset.declaration) hasset
  rw [declarations_collected] at hdeclared
  obtain ⟨call, hcall, hd⟩ := List.mem_filterMap.1 hdeclared
  obtain ⟨kind, hkind, hasset⟩ := Option.map_eq_some_iff.1 hd
  rw [← hasset] at hjs ⊢
  apply h call hcall
  rw [AssetKind.ofLabel?_eq_some_iff.1 hkind]
  exact congrArg AssetKind.label hjs

theorem addNamed_of_unknown {call : Addition} (h : ∀ kind : AssetKind, call.kind ≠ kind.label)
    (assets : Assets) :
    assets.addNamed call.kind call.target call.order call.media call.slot = .error ⟨call.kind⟩ := by
  have hnone : AssetKind.ofLabel? call.kind = none := by
    apply Option.eq_none_iff_forall_ne_some.2
    intro kind hkind
    exact h kind (AssetKind.ofLabel?_eq_some_iff.1 hkind)
  rw [addNamed, hnone]

/-- What a sequence of calls leaves in a collection, and how it is listed. A call with an unknown kind
changes nothing, and each asset stands in one of the three lists. -/
structure Arranged (calls : List Addition) (assets : Assets) : Prop where
  collects : assets.map Asset.declaration = calls.filterMap Addition.declaration?
  numbers : assets.Numbered
  refuses : ∀ before call, before ++ [call] <+: calls → (∀ kind : AssetKind, call.kind ≠ kind.label) →
    (collected before).addNamed call.kind call.target call.order call.media call.slot =
        .error ⟨call.kind⟩ ∧
      collected (before ++ [call]) = collected before
  lists : (assets.stylesheets ++ assets.scripts (some Declaration.headSlot) ++
    assets.scripts (some Declaration.bodySlot)).Perm assets
  once : (assets.stylesheets ++ assets.scripts (some Declaration.headSlot) ++
    assets.scripts (some Declaration.bodySlot)).Nodup
  styles : ∀ a, a ∈ assets.stylesheets ↔ a ∈ assets ∧ a.declaration.kind = .css
  slots : ∀ slot a, a ∈ assets.scripts slot ↔
    a ∈ assets ∧ a.declaration.kind = .js ∧ a.declaration.slot = slot
  stylesOrdered : assets.stylesheets.Ordered
  scriptsOrdered : ∀ slot, (assets.scripts slot).Ordered

/-- Collected assets fall into three lists, and each is in order. -/
theorem arranged_collected {calls : List Addition} (h : ∀ call ∈ calls, call.Slotted) :
    Arranged calls (collected calls) := by
  have hnumbered := numbered_collected calls
  have hlists := perm_lists (slotted_collected h)
  refine ⟨declarations_collected calls, hnumbered, ?_, hlists, ?_, ?_, ?_, ?_, ?_⟩
  · intro before call _ hunknown
    have hfails := addNamed_of_unknown hunknown (collected before)
    refine ⟨hfails, ?_⟩
    have hlast : collected (before ++ [call]) = (collected before).attempt call := by
      simp [collected]
    rw [hlast, attempt, hfails]
  · exact hlists.nodup_iff.2 hnumbered.nodup_sequence.of_map
  · intro a
    simp [stylesheets, sorted]
  · intro slot a
    simp [scripts, sorted]
  · exact ordered_sorted_filter hnumbered _
  · intro slot
    exact ordered_sorted_filter hnumbered _

def mixedCalls : List Addition :=
  [⟨"css".toList, "c".toList, 5, some Declaration.defaultMedia, none⟩,
    ⟨"js".toList, "h".toList, 0, none, some Declaration.headSlot⟩,
    ⟨"img".toList, "i".toList, -7, none, none⟩,
    ⟨"css".toList, "b".toList, 5, none, none⟩,
    ⟨"js".toList, "t".toList, Declaration.lastIndex, none, some Declaration.bodySlot⟩,
    ⟨"css".toList, "a".toList, -10 ^ 20, none, none⟩]

theorem arranged_collected_mixedCalls :
    (∀ call ∈ mixedCalls, call.Slotted) ∧ Arranged mixedCalls (collected mixedCalls) ∧
      (collected mixedCalls).map (·.declaration.target) = [['c'], ['h'], ['b'], ['t'], ['a']] := by
  have hslotted : ∀ call ∈ mixedCalls, call.Slotted := by decide
  exact ⟨hslotted, arranged_collected hslotted, by decide⟩

end Assets

end MarkupTemplate
