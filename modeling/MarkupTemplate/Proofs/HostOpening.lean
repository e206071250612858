import MarkupTemplate.Proofs.CompiledText
import MarkupTemplate.Proofs.TagMarkup

/-!
# Texts in which no block of the host language opens

A block opens with a bracket and a question mark. Parts of a text without such an opening have none
either, and the compiler's words bring none about where they join two such texts, so none opens in a
compiled expression or in the header of a loop. None opens in tags, whose values are escaped.
-/

namespace MarkupTemplate

def Text.Clear (s : Text) : Prop :=
  ¬ ['<', '?'] <:+: s

namespace Text

variable {a s t : Text} {c d : Char}

theorem Clear.of_infix (h : Clear t) (hs : s <:+: t) : Clear s :=
  fun ho => h (ho.trans hs)

theorem clear_cons_iff : Clear (c :: s) ↔ ¬ (c = '<' ∧ s.head? = some '?') ∧ Clear s := by
  have hprefix : ['<', '?'] <+: c :: s ↔ c = '<' ∧ s.head? = some '?' := by
    cases s <;> simp [List.cons_prefix_cons, eq_comm]
  rw [Clear, List.infix_cons_iff, not_or, hprefix, Clear]

theorem clear_of_not_mem (h : '<' ∉ s) : Clear s :=
  fun ho => h (ho.subset (by simp))

@[simp] theorem clear_nil : Clear [] :=
  clear_of_not_mem (by simp)

@[simp] theorem clear_cons (h : c ≠ '<') : Clear (c :: s) ↔ Clear s := by
  simp [clear_cons_iff, h]

@[simp] theorem clear_cons_cons (h : d ≠ '?') : Clear ('<' :: d :: s) ↔ Clear (d :: s) := by
  rw [clear_cons_iff]
  simp [h]

@[simp] theorem clear_append_cons (h : c ≠ '?') :
    Clear (a ++ c :: s) ↔ Clear a ∧ Clear (c :: s) := by
  induction a with
  | nil => simp
  | cons b a ih =>
    have hhead : (a ++ c :: s).head? = some '?' ↔ a.head? = some '?' := by
      cases a <;> simp [h]
    rw [List.cons_append, clear_cons_iff, ih, hhead, ← and_assoc, ← clear_cons_iff]

theorem clear_append_of_last {d : Char} (hs : s.getLast? = some d) (hd : d ≠ '<') :
    Clear (s ++ t) ↔ Clear s ∧ Clear t := by
  induction s with
  | nil => cases hs
  | cons c s ih =>
    cases s with
    | nil =>
      have hc : c ≠ '<' := fun h => hd (Option.some.inj hs ▸ h)
      simp [clear_cons hc]
    | cons b s =>
      rw [List.getLast?_cons_cons] at hs
      rw [List.cons_append, clear_cons_iff, ih hs, ← and_assoc, clear_cons_iff (s := b :: s)]
      rfl

theorem inherited_clear : Inherited Clear where
  nil := clear_nil
  part := Clear.of_infix
  joint := by
    intro a s b hs ha hb
    simp only [isJoint, Bool.and_eq_true, decide_eq_true_eq, Option.any_eq_true, bne_iff_ne] at hs
    obtain ⟨⟨⟨-, hclear⟩, c, hhead, hc⟩, d, hlast, hd⟩ := hs
    have hjoined : Clear (s ++ b) := (clear_append_of_last hlast hd).2 ⟨hclear, hb⟩
    obtain ⟨rest, rfl⟩ := List.head?_eq_some_iff.1 hhead
    exact (clear_append_cons hc).2 ⟨ha, hjoined⟩

end Text

section Tag

open Text (Clear)

variable {name : Text} {attributes : Attributes}

theorem Attributes.lt_not_mem_markup (hnames : ∀ item ∈ attributes, Tag.IsName item.1)
    (skip : List Text) : '<' ∉ attributes.markup name skip := by
  intro h
  obtain ⟨⟨key, value⟩, hitem, hmem⟩ := List.mem_flatMap.1 h
  have hkey : '<' ∉ key := (hnames _ (List.mem_of_mem_filter hitem)).not_mem (by decide)
  cases value with
  | flag => simp [itemMarkup, hkey] at hmem
  | text value => simp [itemMarkup, hkey, Text.not_mem_escape (c := '<') (by decide) value] at hmem
  | missing => simp [itemMarkup, hkey] at hmem

theorem clear_startTag (hname : Tag.IsName name) (hnames : ∀ item ∈ attributes, Tag.IsName item.1)
    (skip : List Text) : Clear (startTag name attributes skip) := by
  have hlt : '<' ∉ name := hname.not_mem (by decide)
  have hquestion : name.head? ≠ some '?' :=
    fun h => hname.not_mem (c := '?') (by decide) (List.mem_of_mem_head? h)
  have hhead : (name ++ attributes.markup name skip ++ ['>']).head? = name.head? := by
    obtain ⟨c, rest, rfl⟩ := List.exists_cons_of_ne_nil hname.ne_nil
    rfl
  rw [startTag, List.cons_append, List.cons_append, Text.clear_cons_iff, hhead]
  refine ⟨fun h => hquestion h.2, Text.clear_of_not_mem ?_⟩
  simp [hlt, Attributes.lt_not_mem_markup hnames skip]

theorem clear_endTag (hname : Tag.IsName name) : Clear (endTag name) := by
  have hlt : '<' ∉ name := hname.not_mem (by decide)
  simp [endTag, Text.clear_of_not_mem hlt]

end Tag

end MarkupTemplate
