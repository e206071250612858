import MarkupTemplate.Proofs.CodeCheck
import MarkupTemplate.Proofs.CodeParts

/-!
# Calls behind closed code

A call of a forbidden function that follows closed code is found, whatever literals and comments that
code holds, unless stripping brings the name up against a word. Only a block comment can do that: a
literal leaves its quotes and a line comment its line feed, but a block comment leaves nothing. The
check then sees one longer name, and the call passes exactly where the call of that longer name does.
-/

namespace MarkupTemplate.Code

def endsInWord (s : Text) : Bool :=
  s.getLast?.any isWordChar

inductive Comments : Text → Prop
  | nil : Comments []
  | block {content rest : Text} : ¬ ['*', '/'] <:+: content → Comments rest →
      Comments ('/' :: '*' :: content ++ ['*', '/'] ++ rest)

theorem callsHere_of_spells {name f w : Text} (hf : Text.Spells name f) (hw : w.all isBlank = true)
    (s : Text) : callsHere name (f ++ w ++ '(' :: s) = true := by
  have htrim : Text.trimStart (w ++ '(' :: s) = '(' :: s := by
    rw [Text.trimStart, List.dropWhile_append_of_pos (List.all_eq_true.1 hw)]
    rfl
  rw [List.append_assoc, callsHere, hf.dropWord?]
  dsimp only
  rw [htrim]
  rfl

theorem closed_call {name f w : Text} (hname : name ∈ forbiddenFunctions) (hf : Text.Spells name f)
    (hw : w.all isBlank = true) : ∀ c ∈ f ++ w ++ ['('], c ≠ '"' ∧ c ≠ '\'' ∧ c ≠ '/' := by
  intro c hc
  simp only [List.mem_append, List.mem_singleton] at hc
  rcases hc with (hc | hc) | rfl
  · have := hf.isWordChar (ascii_of_mem_forbidden name hname) c hc
    refine ⟨?_, ?_, ?_⟩ <;> rintro rfl <;> exact absurd this (by decide)
  · have := List.all_eq_true.1 hw c hc
    refine ⟨?_, ?_, ?_⟩ <;> rintro rfl <;> exact absurd this (by decide)
  · decide

theorem Comments.closed {k : Text} (h : Comments k) : Closed k := by
  induction h with
  | nil => exact .nil
  | block hc _ ih => exact .append (.block hc) ih

theorem Comments.strip_eq {k : Text} (h : Comments k) (keepDouble : Bool) :
    strip keepDouble k = [] := by
  induction h with
  | nil => rw [strip, parts_nil, List.flatMap_nil]
  | block hc _ ih => rw [strip_append (Whole.block hc).closed, strip_block hc, ih, List.append_nil]

theorem comments_of_strip_eq_nil {p : Text} (hp : Closed p) (h : strip false p = []) :
    Comments p := by
  induction hp with
  | nil => exact .nil
  | append hu _ ih =>
    rw [strip_append hu.closed, List.append_eq_nil_iff] at h
    obtain ⟨hunit, hrest⟩ := h
    cases hu with
    | double hc =>
      rw [strip_double hc, if_neg Bool.false_ne_true] at hunit
      exact absurd hunit (by decide)
    | single hc =>
      rw [strip_single hc] at hunit
      exact absurd hunit (by decide)
    | block hc => exact .block hc (ih hrest)
    | line hc =>
      rw [strip_line hc] at hunit
      exact absurd hunit (by decide)
    | @char c h₁ h₂ h₃ =>
      rw [strip_eq_self fun d hd => List.mem_singleton.1 hd ▸ ⟨h₁, h₂, h₃⟩] at hunit
      exact absurd hunit (List.cons_ne_nil c [])

theorem endsInWord_append {a b : Text} (hb : b ≠ []) : endsInWord (a ++ b) = endsInWord b := by
  rw [endsInWord, endsInWord, List.getLast?_append_of_ne_nil a hb]

theorem endsInWord_ne_nil {s : Text} (h : endsInWord s = true) : s ≠ [] := by
  rintro rfl
  exact absurd h (by decide)

theorem endsInWord_whole {unit : Text} (hu : Whole unit)
    (h : endsInWord (strip false unit) = true) : endsInWord unit = true := by
  cases hu with
  | double hc =>
    rw [strip_double hc, if_neg Bool.false_ne_true] at h
    exact absurd h (by decide)
  | single hc =>
    rw [strip_single hc] at h
    exact absurd h (by decide)
  | block hc =>
    rw [strip_block hc] at h
    exact absurd h (by decide)
  | line hc =>
    rw [strip_line hc] at h
    exact absurd h (by decide)
  | char h₁ h₂ h₃ =>
    rwa [strip_eq_self fun d hd => List.mem_singleton.1 hd ▸ ⟨h₁, h₂, h₃⟩] at h

theorem exists_comments_of_endsInWord {p : Text} (hp : Closed p)
    (h : endsInWord (strip false p) = true) :
    ∃ q k, p = q ++ k ∧ Closed q ∧ Comments k ∧ endsInWord q = true := by
  induction hp with
  | nil => exact absurd h (by decide +kernel)
  | @append unit rest hu hr ih =>
    rw [strip_append hu.closed] at h
    by_cases hnil : strip false rest = []
    · rw [hnil, List.append_nil] at h
      exact ⟨unit, rest, rfl, hu.closed, comments_of_strip_eq_nil hr hnil, endsInWord_whole hu h⟩
    · rw [endsInWord_append hnil] at h
      obtain ⟨q, k, rfl, hq, hk, hw⟩ := ih h
      refine ⟨unit ++ q, k, by rw [List.append_assoc], .append hu hq, hk, ?_⟩
      rw [endsInWord_append (endsInWord_ne_nil hw), hw]

theorem isSafe_comments {q k : Text} (hq : Closed q) (hk : Comments k) (t : Text) :
    isSafe (q ++ k ++ t) = isSafe (q ++ t) := by
  refine isSafe_eq_of_strip fun keepDouble => ?_
  rw [strip_append (hq.trans hk.closed), strip_append hq, strip_append hq, hk.strip_eq,
    List.append_nil]

theorem isSafe_call_eq_false {p f w name : Text} (hp : Closed p)
    (hname : name ∈ forbiddenFunctions) (hf : Text.Spells name f) (hw : w.all isBlank = true)
    (h : endsInWord (strip false p) = false) (s : Text) :
    isSafe (p ++ f ++ w ++ '(' :: s) = false := by
  rw [Bool.eq_false_iff]
  intro hsafe
  have hcall := closed_call hname hf hw
  have hstrip : strip false (p ++ f ++ w ++ '(' :: s) =
      strip false p ++ (f ++ w ++ '(' :: strip false s) := by
    have hassoc : p ++ f ++ w ++ '(' :: s = p ++ (f ++ w ++ ['('] ++ s) := by simp
    rw [hassoc, strip_append hp, strip_append (.of_forall hcall), strip_eq_self hcall]
    simp
  refine (isSafe_iff.1 hsafe).noCall name hname ?_
  refine ⟨_, _, hstrip, callsHere_of_spells hf hw _, ?_⟩
  rw [Option.or_none]
  exact h

/-- A call of a forbidden function behind closed code that does not itself end in a word passes the
check exactly where block comments separate its name from a word, and the code without these comments
passes, in which the name is another. -/
theorem isSafe_call_iff {p f w name : Text} (hp : Closed p) (hend : endsInWord p = false)
    (hname : name ∈ forbiddenFunctions) (hf : Text.Spells name f) (hw : w.all isBlank = true)
    (s : Text) :
    isSafe (p ++ f ++ w ++ '(' :: s) = true ↔
      ∃ q k, p = q ++ k ∧ Closed q ∧ endsInWord q = true ∧ Comments k ∧ k ≠ [] ∧
        isSafe (q ++ f ++ w ++ '(' :: s) = true := by
  constructor
  · intro hsafe
    have hword : endsInWord (strip false p) = true := by
      by_contra hne
      rw [isSafe_call_eq_false hp hname hf hw (Bool.eq_false_iff.2 hne)] at hsafe
      exact Bool.false_ne_true hsafe
    obtain ⟨q, k, rfl, hq, hk, hqw⟩ := exists_comments_of_endsInWord hp hword
    refine ⟨q, k, rfl, hq, hqw, hk, ?_, ?_⟩
    · rintro rfl
      rw [List.append_nil, hqw] at hend
      exact Bool.false_ne_true hend.symm
    · rw [List.append_assoc, List.append_assoc, isSafe_comments hq hk] at hsafe
      rwa [List.append_assoc, List.append_assoc]
  · rintro ⟨q, k, rfl, hq, -, hk, -, hsafe⟩
    rw [List.append_assoc, List.append_assoc, isSafe_comments hq hk]
    rwa [List.append_assoc, List.append_assoc] at hsafe

theorem isSafe_call_behind_comment :
    isSafe ("echo".toList ++ "/**/".toList ++ "System".toList ++ [' '] ++ '(' :: "'ls')".toList) =
      true := by
  have hecho : Closed "echo".toList := .of_forall (Text.forall_of_all (by decide))
  have hcomment : Comments "/**/".toList := .block (by decide : ¬ ['*', '/'] <:+: []) .nil
  have hf : Text.Spells "system".toList "System".toList := .of_toLower (by decide)
  refine (isSafe_call_iff (hecho.trans hcomment.closed) (by decide) (by decide +kernel) hf
    (by decide) "'ls')".toList).2 ?_
  exact ⟨"echo".toList, "/**/".toList, rfl, hecho, by decide, hcomment, by decide,
    by decide +kernel⟩

theorem not_forall_isSafe_call : ¬ ∀ p f w name : Text, Closed p → endsInWord p = false →
    name ∈ forbiddenFunctions → Text.Spells name f → w.all isBlank = true →
    ∀ s, isSafe (p ++ f ++ w ++ '(' :: s) = false := by
  intro h
  have hecho : Closed "echo".toList := .of_forall (Text.forall_of_all (by decide))
  have hcomment : Comments "/**/".toList := .block (by decide : ¬ ['*', '/'] <:+: []) .nil
  have hfound := h ("echo".toList ++ "/**/".toList) "System".toList [' '] "system".toList
    (hecho.trans hcomment.closed) (by decide) (by decide +kernel) (.of_toLower (by decide))
    (by decide) "'ls')".toList
  exact absurd hfound (by decide +kernel)

end MarkupTemplate.Code
