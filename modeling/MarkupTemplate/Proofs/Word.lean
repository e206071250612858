import MarkupTemplate.Proofs.Text
import MarkupTemplate.Text.WordChar

/-!
# Words in any letter case

A word of ASCII word characters is found in a text in any letter case. Its forms consist of word
characters, so a word that is found does not reach beyond them, and one that is not found does not come
about by text that begins with something else. An ASCII text in lower case is itself, letter by letter.
-/

namespace MarkupTemplate.Text

theorem isWordChar_of_isAsciiWordChar {c : Char} (h : isAsciiWordChar c = true) :
    isWordChar c = true := by
  have hc : c.toNat < 128 := by
    simp only [isAsciiWordChar, Bool.or_eq_true, Bool.and_eq_true, decide_eq_true_eq,
      beq_iff_eq] at h
    rcases h with ((⟨-, h⟩ | ⟨-, h⟩) | ⟨-, h⟩) | rfl
    · exact Nat.lt_of_le_of_lt (Char.le_def.1 h) (by decide)
    · exact Nat.lt_of_le_of_lt (Char.le_def.1 h) (by decide)
    · exact Nat.lt_of_le_of_lt (Char.le_def.1 h) (by decide)
    · decide
  rw [isWordChar_of_ascii hc, h]

theorem isWordChar_of_isFormOf {p c : Char} (hp : isAsciiWordChar p = true)
    (h : isFormOf p c = true) : isWordChar c = true := by
  simp only [isFormOf, Bool.or_eq_true, Bool.and_eq_true, beq_iff_eq] at h
  rcases h with ((h | ⟨-, rfl | rfl⟩) | ⟨-, rfl⟩) | ⟨-, rfl⟩
  · refine isWordChar_of_isAsciiWordChar ?_
    by_cases hu : c.val ≥ 'A'.val ∧ c.val ≤ 'Z'.val
    · simp only [isAsciiWordChar, Bool.or_eq_true, Bool.and_eq_true, decide_eq_true_eq]
      exact .inl (.inl (.inr hu))
    · have hself : c.toLower = c := dif_neg hu
      rw [← hself, h, hp]
  · decide +kernel
  · decide +kernel
  · decide +kernel
  · decide +kernel

theorem dropWord?_append_of_some {name u w rest : Text}
    (h : dropWord? name u = some (w, rest)) (t : Text) :
    dropWord? name (u ++ t) = some (w, rest ++ t) := by
  induction name generalizing u w with
  | nil =>
    simp only [dropWord?, Option.some_inj, Prod.mk.injEq] at h
    obtain ⟨rfl, rfl⟩ := h
    rfl
  | cons p name ih =>
    cases u with
    | nil => simp [dropWord?] at h
    | cons c u =>
      simp only [dropWord?, List.cons_append] at h ⊢
      split at h
      · next hf =>
        obtain ⟨⟨v, r⟩, hv, he⟩ := Option.map_eq_some_iff.1 h
        cases he
        rw [if_pos hf, ih hv]
        rfl
      · exact absurd h (by simp)

theorem dropWord?_append_of_none {name u t : Text} (h : dropWord? name u = none)
    (ht : ∀ c ∈ t.head?, ∀ p ∈ name, isFormOf p c = false) :
    dropWord? name (u ++ t) = none := by
  induction name generalizing u with
  | nil => simp [dropWord?] at h
  | cons p name ih =>
    cases u with
    | nil =>
      cases t with
      | nil => rfl
      | cons c t =>
        have hc := ht c rfl p List.mem_cons_self
        simp [dropWord?, hc]
    | cons c u =>
      simp only [dropWord?, List.cons_append] at h ⊢
      split at h
      · next hf =>
        rw [Option.map_eq_none_iff] at h
        rw [if_pos hf, ih h fun c hc p hp => ht c hc p (List.mem_cons_of_mem _ hp)]
        rfl
      · next hf => rw [if_neg hf]

/-- `f` is `name` in some letter case. The dotted and the dotless I, the long s and the Kelvin sign
count as forms of i, s and k. -/
def Spells (name f : Text) : Prop :=
  List.Forall₂ (fun p c => isFormOf p c = true) name f

theorem Spells.of_toLower {name f : Text} (h : f.map Char.toLower = name) : Spells name f := by
  subst h
  induction f with
  | nil => exact .nil
  | cons c f ih => exact .cons (by simp [isFormOf]) ih

theorem Spells.dropWord? {name f : Text} (h : Spells name f) (t : Text) :
    Text.dropWord? name (f ++ t) = some (f, t) := by
  induction h with
  | nil => rfl
  | cons hc _ ih =>
    rw [List.cons_append, Text.dropWord?, if_pos hc, ih]
    rfl

theorem Spells.isWordChar {name f : Text} (h : Spells name f)
    (hn : ∀ p ∈ name, isAsciiWordChar p = true) : ∀ c ∈ f, isWordChar c = true := by
  induction h with
  | nil => intro c hc; cases hc
  | cons hc _ ih =>
    intro c hm
    rcases List.mem_cons.1 hm with rfl | hm
    · exact isWordChar_of_isFormOf (hn _ List.mem_cons_self) hc
    · exact ih (fun p hp => hn p (List.mem_cons_of_mem _ hp)) c hm

theorem dropWord?_eq_some_iff {name s w rest : Text} :
    dropWord? name s = some (w, rest) ↔ s = w ++ rest ∧ Spells name w := by
  constructor
  · intro h
    refine ⟨append_of_dropWord? h, ?_⟩
    induction name generalizing s w with
    | nil =>
      cases h
      exact .nil
    | cons p name ih =>
      cases s with
      | nil => cases h
      | cons c s =>
        rw [dropWord?] at h
        split at h
        · next hf =>
          obtain ⟨⟨v, r⟩, hv, he⟩ := Option.map_eq_some_iff.1 h
          cases he
          exact .cons hf (ih hv)
        · cases h
  · rintro ⟨rfl, hw⟩
    exact hw.dropWord? rest

theorem lowerAfter_of_ascii {s : Text} (h : ∀ c ∈ s, c.toNat < 128) (before : Text) :
    lowerAfter before s = s.map Char.toLower := by
  induction s generalizing before with
  | nil => rfl
  | cons c s ih =>
    have hc := h c List.mem_cons_self
    have hsigma : c ≠ 'Σ' := by
      rintro rfl
      exact absurd hc (by decide)
    have hdotted : c ≠ 'İ' := by
      rintro rfl
      exact absurd hc (by decide)
    rw [lowerAfter, lowerLetter, if_neg hsigma, if_neg hdotted, lowerChar, if_pos hc,
      ih fun d hd => h d (List.mem_cons_of_mem c hd)]
    rfl

theorem lower_of_ascii {s : Text} (h : ∀ c ∈ s, c.toNat < 128) : lower s = s.map Char.toLower :=
  lowerAfter_of_ascii h []

end MarkupTemplate.Text
