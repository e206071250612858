import Mathlib.Tactic
import MarkupTemplate.Proofs.Text
import MarkupTemplate.Text.Entity

/-!
# Entities and their undoing

Escaping replaces the five special characters one after another, each pass reading what the passes before
it wrote. Since the ampersand comes first and no entity holds a special character beyond its own ampersand,
this is the same as writing an entity for each special character in one pass. The ampersands of an escaped
text are then exactly the beginnings of its entities, and no entity is the beginning of another. So the
entities can be undone one after another in any order that ends with the ampersand's, and nothing is undone
that escaping did not write.
-/

namespace MarkupTemplate.Text

def markupChars : List Char :=
  ['<', '>', '"', '\'']

def specials : List Char :=
  '&' :: markupChars

/-- `s` with `new` in place of every `mark`, from left to right. The mark is not empty. -/
def replaceAll (mark new : Text) : Text → Text
  | [] => []
  | c :: s =>
    if mark.isPrefixOf (c :: s) then new ++ replaceAll mark new (s.drop (mark.length - 1))
    else c :: replaceAll mark new s
termination_by s => s.length
decreasing_by
  · simp only [List.length_drop, List.length_cons]
    omega
  · simp

def undo (s : Text) (c : Char) : Text :=
  replaceAll (entity c) [c] s

section Replace

variable {mark new s : Text} {c : Char}

theorem replaceAll_cons (h : ¬ mark <+: c :: s) :
    replaceAll mark new (c :: s) = c :: replaceAll mark new s := by
  rw [replaceAll, if_neg]
  rwa [List.isPrefixOf_iff_prefix]

theorem replaceAll_mark (hmark : mark ≠ []) (new s : Text) :
    replaceAll mark new (mark ++ s) = new ++ replaceAll mark new s := by
  obtain ⟨m, rest, rfl⟩ := List.exists_cons_of_ne_nil hmark
  rw [List.cons_append, replaceAll, if_pos]
  · simp
  · simp

theorem replaceAll_singleton (c : Char) (new s : Text) :
    replaceAll [c] new s = replaceChar c new s := by
  induction s with
  | nil => simp [replaceAll, replaceChar]
  | cons d s ih =>
    by_cases hd : d = c
    · subst hd
      have hmark := replaceAll_mark (List.cons_ne_nil d []) new s
      rw [List.singleton_append] at hmark
      simp [hmark, ih, replaceChar]
    · have hnot : ¬ [c] <+: d :: s := by
        simp [List.cons_prefix_cons, Ne.symm hd]
      simp [replaceAll_cons hnot, ih, replaceChar, hd]

end Replace

section Entity

variable {c d : Char}

theorem entity_of_special (h : c ∈ specials) : ∃ name, entity c = '&' :: name ∧ '&' ∉ name := by
  have hall : specials.all (fun c => entity c = '&' :: (entity c).tail ∧ '&' ∉ (entity c).tail) = true := by
    decide
  have hc := forall_of_all hall c h
  exact ⟨(entity c).tail, hc⟩

theorem entity_of_plain (h : c ∉ specials) : entity c = [c] := by
  simp only [specials, markupChars, List.mem_cons, List.not_mem_nil, or_false, not_or] at h
  simp [entity, h]

theorem not_mem_entity (hc : c ∈ markupChars) (d : Char) : c ∉ entity d := by
  by_cases hd : d ∈ specials
  · have hall : markupChars.all (fun c => specials.all fun d => c ∉ entity d) = true := by decide
    exact of_decide_eq_true (List.all_eq_true.1 (List.all_eq_true.1 hall c hc) d hd)
  · rw [entity_of_plain hd, List.mem_singleton]
    rintro rfl
    exact hd (List.mem_cons_of_mem '&' hc)

theorem eq_of_entity_begins {rest : Text} (hc : c ∈ specials) (hd : d ∈ specials)
    (h : entity c <+: entity d ++ rest) : c = d := by
  have hall : specials.all (fun c => specials.all fun d =>
      2 ≤ (entity c).length ∧ ((entity c).take 2 = (entity d).take 2 → c = d)) = true := by
    decide
  have hcd := of_decide_eq_true (List.all_eq_true.1 (List.all_eq_true.1 hall c hc) d hd)
  have hdc := of_decide_eq_true (List.all_eq_true.1 (List.all_eq_true.1 hall d hd) c hc)
  apply hcd.2
  obtain ⟨back, hback⟩ := h
  have htake := congrArg (List.take 2) hback
  rwa [List.take_append_of_le_length hcd.1, List.take_append_of_le_length hdc.1] at htake

end Entity

theorem escape_eq_encode (s : Text) : escape s = encode s := by
  induction s with
  | nil => rfl
  | cons c s ih =>
    have happ := escape_append [c] s
    rw [List.singleton_append] at happ
    rw [happ, escape_singleton, ih]
    rfl

example : escape "&lt;'".toList = "&amp;lt;&#039;".toList := by decide

theorem encode_append (s t : Text) : encode (s ++ t) = encode s ++ encode t :=
  List.flatMap_append

theorem encode_cons (c : Char) (s : Text) : encode (c :: s) = entity c ++ encode s := rfl

theorem not_mem_escape {c : Char} (hc : c ∈ markupChars) (s : Text) : c ∉ escape s := by
  rw [escape_eq_encode]
  intro h
  obtain ⟨d, -, hd⟩ := List.mem_flatMap.1 h
  exact not_mem_entity hc d hd

theorem escape_eq_replaceAll (s : Text) :
    escape s = specials.foldl (fun t c => replaceAll [c] (entity c) t) s := by
  simp only [specials, markupChars, List.foldl_cons, List.foldl_nil, replaceAll_singleton]
  rfl

theorem exists_entity_of_ampersand {s before after : Text} (h : encode s = before ++ '&' :: after) :
    ∃ c ∈ specials, entity c <+: '&' :: after := by
  induction s generalizing before with
  | nil => exact absurd h (by simp [encode])
  | cons c s ih =>
    rw [encode_cons] at h
    by_cases hc : c ∈ specials
    · obtain ⟨name, hentity, hname⟩ := entity_of_special hc
      cases before with
      | nil => exact ⟨c, hc, encode s, h⟩
      | cons d before =>
        -- behind its first character the entity holds no ampersand, so this one comes later
        rw [hentity, List.cons_append, List.cons_append, List.cons.injEq] at h
        rcases List.append_eq_append_iff.1 h.2 with ⟨front, -, hs⟩ | ⟨middle, hmiddle, hs⟩
        · exact ih hs
        · cases middle with
          | nil =>
            have hhead : encode s = [] ++ '&' :: after := hs.symm
            exact ih hhead
          | cons e middle =>
            rw [List.cons_append, List.cons.injEq] at hs
            apply absurd _ hname
            rw [hmiddle, ← hs.1]
            simp
    · rw [entity_of_plain hc] at h
      cases before with
      | nil =>
        rw [List.singleton_append, List.nil_append, List.cons.injEq] at h
        exact absurd h.1 (by rintro rfl; exact hc (by decide))
      | cons d before =>
        rw [List.singleton_append, List.cons_append, List.cons.injEq] at h
        exact ih h.2

def encodeExcept (done : List Char) (s : Text) : Text :=
  s.flatMap fun c => if c ∈ done then [c] else entity c

theorem encodeExcept_nil (s : Text) : encodeExcept [] s = encode s := by
  simp [encodeExcept, encode]

theorem encodeExcept_cons (done : List Char) (c : Char) (s : Text) :
    encodeExcept done (c :: s) = (if c ∈ done then [c] else entity c) ++ encodeExcept done s := rfl

theorem encodeExcept_specials {done : List Char} (h : specials ⊆ done) (s : Text) :
    encodeExcept done s = s := by
  have hself : (fun c => if c ∈ done then [c] else entity c) = fun c => [c] := by
    funext c
    by_cases hc : c ∈ done
    · rw [if_pos hc]
    · rw [if_neg hc, entity_of_plain fun hs => hc (h hs)]
  rw [encodeExcept, hself, List.flatMap_singleton']

section Undo

variable {c : Char} (hc : c ∈ specials)

include hc

theorem undo_entity (s : Text) : undo (entity c ++ s) c = c :: undo s c := by
  obtain ⟨name, hentity, -⟩ := entity_of_special hc
  apply replaceAll_mark
  rw [hentity]
  exact List.cons_ne_nil '&' name

theorem undo_cons {d : Char} (hd : d ≠ '&') (s : Text) : undo (d :: s) c = d :: undo s c := by
  obtain ⟨name, hentity, -⟩ := entity_of_special hc
  apply replaceAll_cons
  rw [hentity, List.cons_prefix_cons]
  exact fun h => hd h.1.symm

theorem undo_append {a : Text} (ha : '&' ∉ a) (s : Text) : undo (a ++ s) c = a ++ undo s c := by
  induction a with
  | nil => rfl
  | cons d a ih =>
    rw [List.mem_cons, not_or] at ha
    rw [List.cons_append, undo_cons hc (Ne.symm ha.1), ih ha.2]
    rfl

theorem undo_other {d : Char} (hd : d ∈ specials) (hne : d ≠ c) (s : Text) :
    undo (entity d ++ s) c = entity d ++ undo s c := by
  have hnot : ¬ entity c <+: entity d ++ s := fun h => hne (eq_of_entity_begins hc hd h).symm
  obtain ⟨name, hentity, hname⟩ := entity_of_special hd
  rw [hentity, List.cons_append] at hnot ⊢
  rw [undo, replaceAll_cons hnot]
  exact congrArg ('&' :: ·) (undo_append hc hname s)

/-- Undoing one entity turns one more character back, as long as the ampersand's own is there. -/
theorem undo_encodeExcept {done : List Char} (hamp : '&' ∉ done) (s : Text) :
    undo (encodeExcept done s) c = encodeExcept (c :: done) s := by
  induction s with
  | nil => simp [encodeExcept, undo, replaceAll]
  | cons d s ih =>
    rw [encodeExcept_cons, encodeExcept_cons, ← ih]
    by_cases hdone : d ∈ done
    · have hd : d ≠ '&' := fun h => hamp (h ▸ hdone)
      rw [if_pos hdone, if_pos (List.mem_cons_of_mem c hdone)]
      exact undo_cons hc hd _
    · by_cases hdc : d = c
      · subst hdc
        rw [if_neg hdone, if_pos List.mem_cons_self]
        exact undo_entity hc _
      · have hrest : d ∉ c :: done := by simp [hdc, hdone]
        rw [if_neg hdone, if_neg hrest]
        by_cases hd : d ∈ specials
        · exact undo_other hc hd hdc _
        · have hne : d ≠ '&' := by
            rintro rfl
            exact hd (by decide)
          rw [entity_of_plain hd]
          exact undo_cons hc hne _

end Undo

theorem foldl_undo {order : List Char} (horder : order ⊆ specials) (hamp : '&' ∉ order)
    {done : List Char} (hdone : '&' ∉ done) (s : Text) :
    order.foldl undo (encodeExcept done s) = encodeExcept (order.reverse ++ done) s := by
  induction order generalizing done with
  | nil => rfl
  | cons c order ih =>
    rw [List.cons_subset] at horder
    rw [List.mem_cons, not_or] at hamp
    have hcdone : '&' ∉ c :: done := by simp [hamp.1, hdone]
    rw [List.foldl_cons, undo_encodeExcept horder.1 hdone, ih horder.2 hamp.2 hcdone]
    simp

theorem undo_escape {order : List Char} (horder : order.Perm markupChars) (s : Text) :
    (order ++ ['&']).foldl undo (escape s) = s := by
  have hspecial : order ⊆ specials := by
    intro c hc
    exact List.mem_cons_of_mem '&' (horder.subset hc)
  have hamp : '&' ∉ order := fun h => absurd (horder.subset h) (by decide)
  rw [List.foldl_append, escape_eq_encode, ← encodeExcept_nil,
    foldl_undo hspecial hamp List.not_mem_nil, List.append_nil]
  have hlast := undo_encodeExcept (c := '&') (by decide) (mt List.mem_reverse.1 hamp) s
  rw [List.foldl_cons, List.foldl_nil, hlast]
  apply encodeExcept_specials
  intro c hc
  rcases List.mem_cons.1 hc with rfl | hc
  · exact List.mem_cons_self
  · exact List.mem_cons_of_mem '&' (List.mem_reverse.2 (horder.symm.subset hc))

structure Encodes (s t : Text) : Prop where
  successive : t = specials.foldl (fun t c => replaceAll [c] (entity c) t) s
  onePass : t = encode s
  noMarkup : ∀ c ∈ markupChars, c ∉ t
  ampersand : ∀ before after, t = before ++ '&' :: after → ∃ c ∈ specials, entity c <+: '&' :: after
  undone : ∀ order : List Char, order.Perm markupChars → (order ++ ['&']).foldl undo t = s

/-- Escaping writes an entity for each special character, and the writing can be undone. -/
theorem escape_encodes : (∀ s, Encodes s (escape s)) ∧ Function.Injective escape := by
  have hencodes : ∀ s, Encodes s (escape s) := by
    intro s
    refine ⟨escape_eq_replaceAll s, escape_eq_encode s, fun c hc => not_mem_escape hc s, ?_,
      fun order horder => undo_escape horder s⟩
    intro before after h
    rw [escape_eq_encode] at h
    exact exists_entity_of_ampersand h
  refine ⟨hencodes, ?_⟩
  intro s t h
  have hs := (hencodes s).undone _ (.refl _)
  have ht := (hencodes t).undone _ (.refl _)
  rw [← hs, h, ht]

end MarkupTemplate.Text
