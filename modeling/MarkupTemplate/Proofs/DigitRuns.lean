import MarkupTemplate.Proofs.Failures

/-!
# Runs of digits

The one thing besides an error of the template that stops a compilation is an index of more digits than
an integer may have, and its digits stand in a row in the source. In a text put together from pieces such
a row lies inside one piece, or runs from the end of one over whole pieces to the beginning of another. So
it is bounded once the rows at the edges of each piece are, and a piece between two other characters
contributes none there, however long it is.
-/

namespace MarkupTemplate

namespace Text

variable {s t run : Text} {edge : Nat}

def IsDigits (s : Text) : Prop :=
  ∀ c ∈ s, isDigit c = true

/-- Digits in a row in `s` are never too many for an integer, and at most `edge` at either end of `s`. -/
structure DigitsFit (edge : Nat) (s : Text) : Prop where
  inside : ∀ {run : Text}, run <:+: s → IsDigits run → run.length ≤ digitLimit
  start : ∀ {run : Text}, run <+: s → IsDigits run → run.length ≤ edge
  finish : ∀ {run : Text}, run <:+ s → IsDigits run → run.length ≤ edge

theorem isDigits_append : IsDigits (s ++ t) ↔ IsDigits s ∧ IsDigits t :=
  List.forall_mem_append

theorem IsDigits.eq_nil_of_prefix {c : Char} (h : IsDigits run) (hrun : run <+: c :: s)
    (hc : isDigit c = false) : run = [] := by
  cases run with
  | nil => rfl
  | cons d run =>
    rw [List.cons_prefix_cons] at hrun
    have hd := h d List.mem_cons_self
    rw [hrun.1, hc] at hd
    cases hd

theorem IsDigits.eq_nil_of_suffix {c : Char} (h : IsDigits run) (hrun : run <:+ s ++ [c])
    (hc : isDigit c = false) : run = [] := by
  have hreversed : IsDigits run.reverse := fun d hd => h d (List.mem_reverse.1 hd)
  have hprefix : run.reverse <+: c :: s.reverse := by simpa using List.reverse_prefix.2 hrun
  exact List.reverse_eq_nil_iff.1 (hreversed.eq_nil_of_prefix hprefix hc)

namespace DigitsFit

theorem mono {wide : Nat} (h : DigitsFit edge s) (hle : edge ≤ wide) : DigitsFit wide s where
  inside := h.inside
  start hrun hdigits := (h.start hrun hdigits).trans hle
  finish hrun hdigits := (h.finish hrun hdigits).trans hle

theorem of_length (hs : s.length ≤ edge) (hedge : edge ≤ digitLimit) : DigitsFit edge s where
  inside hrun _ := hrun.length_le.trans (hs.trans hedge)
  start hrun _ := hrun.length_le.trans hs
  finish hrun _ := hrun.length_le.trans hs

theorem append {other : Nat} (hs : DigitsFit edge s) (ht : DigitsFit other t)
    (hedges : edge + other ≤ digitLimit) : DigitsFit (edge + other) (s ++ t) where
  inside := by
    intro run hrun hdigits
    rcases List.infix_append_iff.1 hrun with hrun | hrun | ⟨first, second, rfl, hfirst, hsecond⟩
    · exact hs.inside hrun hdigits
    · exact ht.inside hrun hdigits
    · have hleft := hs.finish hfirst (isDigits_append.1 hdigits).1
      have hright := ht.start hsecond (isDigits_append.1 hdigits).2
      rw [List.length_append]
      omega
  start := by
    intro run hrun hdigits
    rcases List.prefix_or_prefix_of_prefix hrun (List.prefix_append s t) with hrun | ⟨rest, rfl⟩
    · exact (hs.start hrun hdigits).trans (Nat.le_add_right _ _)
    · have hleft := hs.start (List.prefix_refl s) (isDigits_append.1 hdigits).1
      have hright := ht.start ((List.prefix_append_right_inj s).1 hrun) (isDigits_append.1 hdigits).2
      rw [List.length_append]
      omega
  finish := by
    intro run hrun hdigits
    rcases List.suffix_or_suffix_of_suffix hrun (List.suffix_append s t) with hrun | ⟨rest, rfl⟩
    · exact (ht.finish hrun hdigits).trans (Nat.le_add_left _ _)
    · have hleft := hs.finish (List.suffix_append_self_iff.1 hrun) (isDigits_append.1 hdigits).1
      have hright := ht.finish (List.suffix_refl t) (isDigits_append.1 hdigits).2
      rw [List.length_append]
      omega

theorem flatten {parts : List Text} (h : ∀ part ∈ parts, DigitsFit edge part)
    (hedges : parts.length * edge ≤ digitLimit) : DigitsFit (parts.length * edge) parts.flatten := by
  induction parts with
  | nil => exact of_length (by simp) (by simp)
  | cons part parts ih =>
    rw [List.length_cons, Nat.succ_mul] at hedges ⊢
    obtain ⟨hpart, hparts⟩ := List.forall_mem_cons.1 h
    rw [Nat.add_comm] at hedges ⊢
    exact hpart.append (ih hparts (by omega)) hedges

theorem enclosed {opening closing : Char} (ho : isDigit opening = false) (hc : isDigit closing = false)
    (hs : DigitsFit edge s) : DigitsFit 0 (opening :: (s ++ [closing])) where
  inside := by
    intro run hrun hdigits
    rcases List.infix_cons_iff.1 hrun with hrun | hrun
    · simp [hdigits.eq_nil_of_prefix hrun ho]
    rcases List.infix_concat_iff.1 hrun with hrun | hrun
    · simp [hdigits.eq_nil_of_suffix hrun hc]
    · exact hs.inside hrun hdigits
  start hrun hdigits := by simp [hdigits.eq_nil_of_prefix hrun ho]
  finish hrun hdigits := by
    rw [← List.cons_append] at hrun
    simp [hdigits.eq_nil_of_suffix hrun hc]

end DigitsFit

theorem BeginsWithDigits.exists_digits {count : Nat} (h : BeginsWithDigits count s) :
    ∃ run, run <:+: s ∧ IsDigits run ∧ run.length = count := by
  obtain ⟨blanks, sign, digits, rest, rfl, -, -, hdigits, -, hcount⟩ := h
  exact ⟨digits, ⟨blanks ++ sign, rest, by simp⟩, hdigits, hcount⟩

theorem IsDigits.not_mem_lineBreak (h : IsDigits s) : '\n' ∉ s :=
  fun hmem => absurd (h _ hmem) (by decide)

end Text

theorem Render.Reaches.mem_labelsAll {name : Text} {attributes : Attributes} {nodes : List Node}
    (h : Reaches name attributes nodes) : .element name attributes ∈ Node.labelsAll nodes := by
  induction h with
  | here _ => simp
  | inside _ ih => simp [ih]
  | after _ _ ih => simp [ih]

theorem template_of_digitsFit {options : Options} {source : Text} {edge : Nat} {failure : Failure}
    (hsource : source.DigitsFit edge) (h : (compile options source).outcome = .error failure) :
    ∃ e, failure = .template e := by
  have hlabels : ∀ label ∈ Node.labelsAll (documentOf (tokenize source)), label.AsRead :=
    fun label hl => (readIn_of_mem_labelsAll label hl).asRead
  rcases outcome_compile_eq_error_iff.1 h with ⟨cut, -, -, rfl⟩ | ⟨-, hrender⟩
  · exact ⟨_, rfl⟩
  rcases Render.renderAll_error_cases _ hlabels hrender with he | ⟨digits, _, _, -, hreaches, hlong⟩
  · exact he
  · exfalso
    have hread := readIn_of_mem_labelsAll _ hreaches.mem_labelsAll
    obtain ⟨value, hfind, hbegins⟩ := hlong.hasIndex
    obtain ⟨run, hrun, hdigits, hlength⟩ := hbegins.exists_digits
    cases hread with
    | element part named =>
      have hraw := Tag.infix_of_mem_attributes hdigits.not_mem_lineBreak (Attributes.mem_of_lookup hfind) hrun
      have hle := hsource.inside (hraw.trans part) hdigits
      have hmany := hlong.tooMany
      omega

end MarkupTemplate
