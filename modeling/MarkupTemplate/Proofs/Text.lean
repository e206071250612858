import Mathlib.Data.List.TakeWhile
import Mathlib.Tactic
import MarkupTemplate.Text.Blank
import MarkupTemplate.Text.LetterCase
import MarkupTemplate.Text.Literal

/-!
# Laws of the text operations

Cutting a text at a mark finds the first occurrence: the mark stands in the text and nowhere earlier.
Reading a literal finds the first quote that no backslash takes along. Trimming removes blanks at both
ends, so a text is its trimmed form between two runs of blanks.
-/

namespace MarkupTemplate.Text

theorem isPrefixOf?_eq_none_iff {mark s : Text} : List.isPrefixOf? mark s = none ↔ ¬ mark <+: s := by
  constructor
  · rintro h ⟨rest, rfl⟩
    rw [isPrefixOf?_eq_some_iff.2 rfl] at h
    exact Option.some_ne_none _ h
  · intro h
    cases hd : List.isPrefixOf? mark s with
    | none => rfl
    | some rest => exact absurd ⟨rest, (isPrefixOf?_eq_some_iff.1 hd).symm⟩ h

theorem cut?_cons_of_some {mark s rest : Text} {c : Char}
    (h : List.isPrefixOf? mark (c :: s) = some rest) : cut? mark (c :: s) = some ([], rest) := by
  rw [cut?, h]

theorem cut?_cons_of_none {mark s : Text} {c : Char} (h : List.isPrefixOf? mark (c :: s) = none) :
    cut? mark (c :: s) = (cut? mark s).map fun (before, rest) => (c :: before, rest) := by
  rw [cut?, h]

theorem cut?_eq_none_iff {mark s : Text} : cut? mark s = none ↔ ¬ mark <:+: s := by
  induction s with
  | nil =>
    rw [cut?, Option.map_eq_none_iff, isPrefixOf?_eq_none_iff, List.infix_nil, List.prefix_nil]
  | cons c s ih =>
    rw [List.infix_cons_iff, not_or, ← ih, ← isPrefixOf?_eq_none_iff]
    cases hd : List.isPrefixOf? mark (c :: s) with
    | none => simp [cut?_cons_of_none hd]
    | some rest => simp [cut?_cons_of_some hd]

theorem not_infix_of_cut? {mark s before rest : Text} (hm : mark ≠ [])
    (h : cut? mark s = some (before, rest)) : ¬ mark <:+: before ++ mark.dropLast := by
  induction s generalizing before with
  | nil =>
    obtain ⟨r, hr, -⟩ := Option.map_eq_some_iff.1 h
    exact absurd (List.append_eq_nil_iff.1 (isPrefixOf?_eq_some_iff.1 hr).symm).1 hm
  | cons c s ih =>
    cases hd : List.isPrefixOf? mark (c :: s) with
    | some r =>
      rw [cut?_cons_of_some hd, Option.some_inj, Prod.mk.injEq] at h
      obtain ⟨rfl, rfl⟩ := h
      intro hi
      have hl := hi.length_le
      have := List.length_pos_iff.2 hm
      rw [List.nil_append, List.length_dropLast] at hl
      omega
    | none =>
      rw [cut?_cons_of_none hd] at h
      obtain ⟨⟨b, r⟩, hb, he⟩ := Option.map_eq_some_iff.1 h
      cases he
      rw [List.cons_append, List.infix_cons_iff, not_or]
      refine ⟨fun hp => ?_, ih hb⟩
      -- an occurrence at the head would have been found there
      refine isPrefixOf?_eq_none_iff.1 hd (hp.trans ?_)
      have hsuf : b ++ mark.dropLast <+: s := by
        rw [append_of_cut? hb, List.append_assoc]
        exact List.prefix_append_right_inj b |>.2
          ((List.dropLast_prefix mark).trans (List.prefix_append mark rest))
      exact List.cons_prefix_cons.2 ⟨rfl, hsuf⟩

theorem cut?_append {mark before : Text} (hm : mark ≠ [])
    (h : ¬ mark <:+: before ++ mark.dropLast) (rest : Text) :
    cut? mark (before ++ mark ++ rest) = some (before, rest) := by
  induction before with
  | nil =>
    cases mark with
    | nil => exact absurd rfl hm
    | cons m mark =>
      exact cut?_cons_of_some (isPrefixOf?_eq_some_iff.2 rfl)
  | cons c b ih =>
    rw [List.cons_append, List.infix_cons_iff, not_or] at h
    have hd : List.isPrefixOf? mark (c :: (b ++ mark ++ rest)) = none := by
      rw [isPrefixOf?_eq_none_iff]
      intro hp
      refine h.1 (List.prefix_of_prefix_length_le hp ?_ ?_)
      · refine List.cons_prefix_cons.2 ⟨rfl, ?_⟩
        rw [List.append_assoc]
        exact List.prefix_append_right_inj b |>.2
          ((List.dropLast_prefix mark).trans (List.prefix_append mark rest))
      · have := List.length_pos_iff.2 hm
        simp only [List.length_cons, List.length_append, List.length_dropLast]
        omega
    rw [List.cons_append, List.cons_append, cut?_cons_of_none hd, ih h.2]
    rfl

theorem cut?_append_of_some {mark s before rest : Text} (hm : mark ≠ [])
    (h : cut? mark s = some (before, rest)) (t : Text) :
    cut? mark (s ++ t) = some (before, rest ++ t) := by
  rw [append_of_cut? h, List.append_assoc _ rest t]
  exact cut?_append hm (not_infix_of_cut? hm h) _

theorem occursIn_iff {mark s : Text} : occursIn mark s = true ↔ mark <:+: s := by
  rw [occursIn, Option.isSome_iff_ne_none, ne_eq, cut?_eq_none_iff, not_not]

theorem prefix_of_prefix_append_cons {mark a b : Text} {c : Char} (hc : c ∉ mark)
    (h : mark <+: a ++ c :: b) : mark <+: a := by
  have hconcat : a ++ [c] <+: a ++ c :: b := ⟨b, List.append_assoc a [c] b⟩
  rcases List.prefix_or_prefix_of_prefix h hconcat with hp | hp
  · rcases List.prefix_concat_iff.1 hp with rfl | hp
    · exact absurd (List.mem_append_right a List.mem_cons_self) hc
    · exact hp
  · exact absurd (hp.subset (List.mem_append_right a List.mem_cons_self)) hc

theorem infix_of_infix_append_cons {mark a b : Text} {c : Char} (hc : c ∉ mark)
    (h : mark <:+: a ++ c :: b) : mark <:+: a ∨ mark <:+: b := by
  induction a with
  | nil =>
    rcases List.infix_cons_iff.1 h with hp | hi
    · exact .inl (prefix_of_prefix_append_cons hc hp).isInfix
    · exact .inr hi
  | cons d a ih =>
    rcases List.infix_cons_iff.1 h with hp | hi
    · exact .inl (prefix_of_prefix_append_cons hc hp).isInfix
    · exact (ih hi).imp_left fun ha => List.infix_cons_iff.2 (.inr ha)

theorem literal?_cons {quote c : Char} (hc : c ≠ '\\') (s : Text) :
    literal? quote (c :: s) =
      if c = quote then some ([], s)
      else (literal? quote s).map fun (content, rest) => (c :: content, rest) := by
  rw [literal?, if_neg hc]
  exact fun _ _ h _ => hc h

theorem literal?_escaped (quote c : Char) (s : Text) :
    literal? quote ('\\' :: c :: s) =
      (literal? quote s).map fun (content, rest) => ('\\' :: c :: content, rest) := by
  rw [literal?]

theorem literal?_backslash {quote : Char} (hq : quote ≠ '\\') : literal? quote ['\\'] = none := by
  simp [literal?, Ne.symm hq]

theorem literal?_append_of_some {quote : Char} {s content rest : Text} (hq : quote ≠ '\\')
    (h : literal? quote s = some (content, rest)) (t : Text) :
    literal? quote (s ++ t) = some (content, rest ++ t) := by
  induction s using literal?.induct quote generalizing content with
  | case1 => exact absurd h.symm (Option.some_ne_none _)
  | case2 c s ih =>
    rw [literal?_escaped] at h
    obtain ⟨⟨b, r⟩, hb, he⟩ := Option.map_eq_some_iff.1 h
    cases he
    rw [List.cons_append, List.cons_append, literal?_escaped, ih hb]
    rfl
  | case3 s _ =>
    rw [literal?_cons hq, if_pos rfl] at h
    cases h
    rw [List.cons_append, literal?_cons hq, if_pos rfl]
  | case4 s hpair _ =>
    cases s with
    | nil =>
      rw [literal?_backslash hq] at h
      exact absurd h.symm (Option.some_ne_none _)
    | cons c s => exact absurd rfl (hpair c s rfl)
  | case5 c s hs hc hb ih =>
    rw [literal?_cons hb, if_neg hc] at h
    obtain ⟨⟨b, r⟩, hr, he⟩ := Option.map_eq_some_iff.1 h
    cases he
    rw [List.cons_append, literal?_cons hb, if_neg hc, ih hr]
    rfl

/-- What holds of all characters of a text is found by running through the text. Deciding the
quantifier itself may run through all characters there are. -/
theorem forall_of_all {p : Char → Prop} [DecidablePred p] {s : Text}
    (h : (s.all fun c => decide (p c)) = true) : ∀ c ∈ s, p c :=
  fun c hc => of_decide_eq_true (List.all_eq_true.1 h c hc)

def blankCodes : List Nat :=
  List.range' 9 5 ++ List.range' 28 5 ++ [0x85, 0xA0, 0x1680] ++ List.range' 0x2000 11 ++
    [0x2028, 0x2029, 0x202F, 0x205F, 0x3000]

theorem toNat_mem_blankCodes {c : Char} (h : isBlank c = true) : c.toNat ∈ blankCodes := by
  simp only [isBlank, isBlankCode, Bool.or_eq_true, Bool.and_eq_true, decide_eq_true_eq,
    beq_iff_eq] at h
  simp only [blankCodes, List.mem_append, List.mem_range'_1, List.mem_cons, List.not_mem_nil]
  omega

theorem exists_trimStart (s : Text) :
    ∃ blanks, blanks.all isBlank = true ∧ s = blanks ++ trimStart s := by
  refine ⟨s.takeWhile isBlank, List.all_takeWhile, ?_⟩
  exact List.takeWhile_append_dropWhile.symm

theorem exists_trimEnd (s : Text) :
    ∃ blanks, blanks.all isBlank = true ∧ s = trimEnd s ++ blanks := by
  refine ⟨(s.reverse.takeWhile isBlank).reverse, ?_, ?_⟩
  · rw [List.all_reverse]
    exact List.all_takeWhile
  · rw [trimEnd, ← List.reverse_append, List.takeWhile_append_dropWhile, List.reverse_reverse]

theorem exists_trim (s : Text) :
    ∃ before after, before.all isBlank = true ∧ after.all isBlank = true ∧
      s = before ++ trim s ++ after := by
  obtain ⟨before, hb, hs⟩ := exists_trimStart s
  obtain ⟨after, ha, ht⟩ := exists_trimEnd (trimStart s)
  refine ⟨before, after, hb, ha, ?_⟩
  rw [List.append_assoc, trim, ← ht]
  exact hs

theorem not_isBlank_head?_trimStart {s : Text} {c : Char} (h : c ∈ (trimStart s).head?) :
    isBlank c = false := by
  have := List.head?_dropWhile_not isBlank s
  rw [trimStart] at h
  rw [h] at this
  simpa using this

theorem trimStart_eq_self {s : Text} (h : ∀ c ∈ s.head?, isBlank c = false) : trimStart s = s := by
  cases s with
  | nil => rfl
  | cons c s => exact trimStart_cons_of_not_blank (h c rfl)

section Stop

variable {p : Char → Bool} {s rest : Text} (hs : ∀ c ∈ s, p c = true)
  (hrest : ∀ c ∈ rest.head?, p c = false)

include hs hrest

theorem takeWhile_append_of_stop : (s ++ rest).takeWhile p = s := by
  rw [List.takeWhile_append_of_pos hs]
  cases rest with
  | nil => simp
  | cons c rest => simp [hrest c rfl]

theorem dropWhile_append_of_stop : (s ++ rest).dropWhile p = rest := by
  rw [List.dropWhile_append_of_pos hs]
  cases rest with
  | nil => rfl
  | cons c rest => simp [hrest c rfl]

end Stop

theorem trimStart_append {blanks s : Text} (hblanks : ∀ c ∈ blanks, isBlank c = true)
    (hs : ∀ c ∈ s.head?, isBlank c = false) : trimStart (blanks ++ s) = s :=
  dropWhile_append_of_stop hblanks hs

theorem trimEnd_eq_reverse (s : Text) : trimEnd s = (trimStart s.reverse).reverse := rfl

theorem trimEnd_eq_self {s : Text} (h : ∀ c ∈ s.getLast?, isBlank c = false) : trimEnd s = s := by
  rw [trimEnd_eq_reverse, trimStart_eq_self, List.reverse_reverse]
  rwa [List.head?_reverse]

theorem not_isBlank_getLast?_trimEnd {s : Text} {c : Char} (h : c ∈ (trimEnd s).getLast?) :
    isBlank c = false := by
  rw [trimEnd_eq_reverse, List.getLast?_reverse] at h
  exact not_isBlank_head?_trimStart h

theorem not_isBlank_getLast?_trim {s : Text} {c : Char} (h : c ∈ (trim s).getLast?) :
    isBlank c = false :=
  not_isBlank_getLast?_trimEnd h

theorem not_isBlank_head?_trim {s : Text} {c : Char} (h : c ∈ (trim s).head?) :
    isBlank c = false := by
  obtain ⟨blanks, -, hs⟩ := exists_trimEnd (trimStart s)
  refine not_isBlank_head?_trimStart (s := s) ?_
  rw [hs, List.head?_append, ← trim, h]
  rfl

theorem exists_trim_append {s : Text} (rest : Text)
    (h : ∀ c ∈ (s ++ rest).head?, isBlank c = false) :
    ∃ blanks, blanks.all isBlank = true ∧ s = trim s ++ blanks := by
  have hs : trimStart s = s := by
    refine trimStart_eq_self fun c hc => h c ?_
    rw [List.head?_append, hc]
    rfl
  rw [trim, hs]
  exact exists_trimEnd s

theorem exists_append_trim {s : Text} (front : Text)
    (h : ∀ c ∈ (front ++ s).getLast?, isBlank c = false) :
    ∃ blanks, blanks.all isBlank = true ∧ s = blanks ++ trim s := by
  obtain ⟨blanks, hb, hs⟩ := exists_trimStart s
  refine ⟨blanks, hb, ?_⟩
  have ht : trim s = trimStart s := by
    refine trimEnd_eq_self fun c hc => h c ?_
    rw [hs, ← List.append_assoc, List.getLast?_append, hc]
    rfl
  rw [ht, ← hs]

def Blank (s : Text) : Prop :=
  ∀ c ∈ s, isBlank c = true

theorem trim_eq_nil_iff {s : Text} : trim s = [] ↔ s.Blank := by
  constructor
  · intro h
    obtain ⟨before, after, hbefore, hafter, hs⟩ := exists_trim s
    rw [h, List.append_nil] at hs
    intro c hc
    rw [hs, List.mem_append] at hc
    rcases hc with hc | hc
    · exact List.all_eq_true.1 hbefore c hc
    · exact List.all_eq_true.1 hafter c hc
  · intro h
    have hstart : trimStart s = [] := List.dropWhile_eq_nil_iff.2 h
    rw [trim, hstart]
    rfl

theorem trimStart_append_cons {c : Char} (hc : isBlank c = false) (a b : Text) :
    trimStart (a ++ c :: b) = trimStart a ++ c :: b := by
  induction a with
  | nil => exact trimStart_cons_of_not_blank hc
  | cons d a ih =>
    by_cases hd : isBlank d = true
    · simpa [trimStart, hd] using ih
    · simp [trimStart, hd]

theorem trimEnd_append_cons {c : Char} (hc : isBlank c = false) (a b : Text) :
    trimEnd (a ++ c :: b) = a ++ c :: trimEnd b := by
  have hreverse : (a ++ c :: b).reverse = b.reverse ++ c :: a.reverse := by simp
  rw [trimEnd_eq_reverse, hreverse, trimStart_append_cons hc]
  simp [trimEnd_eq_reverse]

theorem trim_append_mark {mark : Text} (hne : mark ≠ []) (hmark : ∀ c ∈ mark, isBlank c = false)
    (a b : Text) : trim (a ++ mark ++ b) = trimStart a ++ mark ++ trimEnd b := by
  obtain ⟨c, m, hfirst⟩ := List.exists_cons_of_ne_nil hne
  obtain ⟨front, d, hlast⟩ : ∃ front d, mark = front ++ [d] :=
    ⟨mark.dropLast, mark.getLast hne, (List.dropLast_append_getLast hne).symm⟩
  have hc : isBlank c = false := hmark c (by simp [hfirst])
  have hd : isBlank d = false := hmark d (by simp [hlast])
  have hstart : trimStart (a ++ mark ++ b) = trimStart a ++ mark ++ b := by
    rw [hfirst, List.append_assoc, List.cons_append, trimStart_append_cons hc, List.append_assoc,
      List.cons_append]
  have hsplit : ∀ rest, trimStart a ++ mark ++ rest = trimStart a ++ front ++ d :: rest := by
    intro rest
    simp [hlast]
  rw [trim, hstart, hsplit, trimEnd_append_cons hd, hsplit]

theorem trim_trimStart (s : Text) : trim (trimStart s) = trim s := by
  have hself : trimStart (trimStart s) = trimStart s :=
    trimStart_eq_self fun _ hc => not_isBlank_head?_trimStart hc
  rw [trim, hself, trim]

theorem trimEnd_eq_nil {s : Text} (h : s.Blank) : trimEnd s = [] := by
  have hreverse : trimStart s.reverse = [] :=
    List.dropWhile_eq_nil_iff.2 fun c hc => h c (List.mem_reverse.1 hc)
  rw [trimEnd_eq_reverse, hreverse]
  rfl

theorem trim_trimEnd (s : Text) : trim (trimEnd s) = trim s := by
  obtain ⟨blanks, hblanks, hs⟩ := exists_trimEnd s
  have hblank : blanks.Blank := List.all_eq_true.1 hblanks
  have hnil : Blank [] := fun c hc => absurd hc List.not_mem_nil
  rcases List.eq_nil_or_concat (trimEnd s) with hend | ⟨front, d, hend⟩
  · rw [hend, List.nil_append] at hs
    rw [hend, hs, trim_eq_nil_iff.2 hblank, trim_eq_nil_iff.2 hnil]
  · rw [List.concat_eq_append] at hend
    have hd : isBlank d = false := by
      apply not_isBlank_getLast?_trimEnd (s := s)
      simp [hend]
    -- what ends in `d` and what has blanks behind it are trimmed to the same
    have htrim : ∀ b : Text, b.Blank → trim (front ++ [d] ++ b) = trimStart front ++ [d] ++ [] := by
      intro b hb
      rw [trim_append_mark (List.cons_ne_nil d []) (by simpa using hd), trimEnd_eq_nil hb]
    have hshort := htrim [] hnil
    rw [List.append_nil] at hshort
    rw [hend, hshort]
    conv_rhs => rw [hs, hend]
    exact (htrim blanks hblank).symm

theorem blank_trim_iff {s : Text} : (trim s).Blank ↔ s.Blank := by
  have htrim : trim (trim s) = trim s := by
    change trim (trimEnd (trimStart s)) = trim s
    rw [trim_trimEnd, trim_trimStart]
  rw [← trim_eq_nil_iff, htrim, trim_eq_nil_iff]

theorem trimStart_blank_append {blanks : Text} (hblanks : blanks.Blank) (s : Text) :
    trimStart (blanks ++ s) = trimStart s :=
  List.dropWhile_append_of_pos hblanks

theorem trimEnd_append_blank {blanks : Text} (hblanks : blanks.Blank) (s : Text) :
    trimEnd (s ++ blanks) = trimEnd s := by
  have hreverse : Blank blanks.reverse := fun c hc => hblanks c (List.mem_reverse.1 hc)
  rw [trimEnd_eq_reverse, List.reverse_append, trimStart_blank_append hreverse, trimEnd_eq_reverse]

theorem trim_blank_append {blanks : Text} (hblanks : blanks.Blank) (s : Text) :
    trim (blanks ++ s) = trim s := by
  rw [← trim_trimStart, trimStart_blank_append hblanks, trim_trimStart]

theorem trim_append_blank {blanks : Text} (hblanks : blanks.Blank) (s : Text) :
    trim (s ++ blanks) = trim s := by
  rw [← trim_trimEnd, trimEnd_append_blank hblanks, trim_trimEnd]

structure Trimmed (s : Text) : Prop where
  ne_nil : s ≠ []
  trim_eq : trim s = s

namespace Trimmed

variable {s t : Text}

theorem not_blank (h : s.Trimmed) (ht : trim t = s) : ¬ t.Blank := by
  rw [← trim_eq_nil_iff, ht]
  exact h.ne_nil

theorem enclose (hs : s.Trimmed) (ht : t.Trimmed) (middle : Text) : Trimmed (s ++ middle ++ t) where
  ne_nil := by
    intro h
    exact ht.ne_nil (List.append_eq_nil_iff.1 h).2
  trim_eq := by
    have hstart : trimStart (s ++ middle ++ t) = s ++ middle ++ t := by
      apply trimStart_eq_self
      intro c hc
      rw [List.append_assoc, List.head?_append_of_ne_nil _ hs.ne_nil, ← hs.trim_eq] at hc
      exact not_isBlank_head?_trim hc
    have hend : trimEnd (s ++ middle ++ t) = s ++ middle ++ t := by
      apply trimEnd_eq_self
      intro c hc
      rw [List.getLast?_append_of_ne_nil _ ht.ne_nil, ← ht.trim_eq] at hc
      exact not_isBlank_getLast?_trim hc
    rw [trim, hstart, hend]

end Trimmed

theorem infix_of_infix_append {mark a b : Text} {c : Char} (hlast : mark.getLast? = some c)
    (hc : c ∉ b) (h : mark <:+: a ++ b) : mark <:+: a := by
  obtain ⟨front, back, hsplit⟩ := h
  rcases List.append_eq_append_iff.1 hsplit with ⟨rest, ha, -⟩ | ⟨rest, hmark, hb⟩
  · exact ⟨front, rest, ha.symm⟩
  · cases hrest : rest.getLast? with
    | none =>
      rw [List.getLast?_eq_none_iff.1 hrest, List.append_nil] at hmark
      exact ⟨front, [], by rw [List.append_nil, hmark]⟩
    | some d =>
      -- the mark reaches into `b`, so its last character is there
      have hd : (front ++ mark).getLast? = some d := by
        rw [hmark, List.getLast?_append, hrest]
        rfl
      rw [List.getLast?_append, hlast] at hd
      cases hd
      apply absurd _ hc
      rw [hb]
      exact List.mem_append_left back (List.mem_of_getLast? hrest)

end MarkupTemplate.Text
