import MarkupTemplate.Proofs.CodeCheck
import MarkupTemplate.Proofs.CodeParts

/-!
# Gaps in code

A gap is a run of characters that neither open nor close a literal or a block comment, such as blanks
around an arrow or a comma. Whether it stands in code, in a literal or in a comment is decided by what
surrounds it, so that a gap may be replaced by another without the parts around it being read
differently. A line comment is the exception: it ends at a line feed, and the gap may hold one.
-/

namespace MarkupTemplate.Code

def Neutral (c : Char) : Prop :=
  c ≠ '"' ∧ c ≠ '\'' ∧ c ≠ '\\' ∧ c ≠ '/' ∧ c ≠ '*'

instance : DecidablePred Neutral :=
  fun c => inferInstanceAs (Decidable (c ≠ '"' ∧ c ≠ '\'' ∧ c ≠ '\\' ∧ c ≠ '/' ∧ c ≠ '*'))

theorem Neutral.plain {c : Char} (h : Neutral c) : c ≠ '"' ∧ c ≠ '\'' ∧ c ≠ '/' := by
  obtain ⟨hdouble, hsingle, -, hslash, -⟩ := h
  exact ⟨hdouble, hsingle, hslash⟩

/-- What can stand before `after` as a gap. It is empty only at the end of the code. -/
structure Gap (after gap : Text) : Prop where
  neutral : ∀ c ∈ gap, Neutral c
  ne_nil : gap ≠ [] ∨ after = []

theorem literal?_neutral {quote : Char} (hq : quote = '"' ∨ quote = '\'') {s : Text}
    (h : ∀ c ∈ s, Neutral c) (rest : Text) :
    Text.literal? quote (s ++ rest) =
      (Text.literal? quote rest).map fun (content, r) => (s ++ content, r) := by
  induction s with
  | nil => simp
  | cons c s ih =>
    obtain ⟨h₁, h₂, hb, -, -⟩ := h c List.mem_cons_self
    have hc : c ≠ quote := by
      rcases hq with rfl | rfl
      · exact h₁
      · exact h₂
    rw [List.cons_append, Text.literal?_cons hb, if_neg hc,
      ih fun d hd => h d (List.mem_cons_of_mem c hd), Option.map_map]
    rfl

theorem literal?_gap {quote : Char} (hq : quote = '"' ∨ quote = '\'') {before after gap : Text}
    (h : Text.literal? quote before = none) (hg : Gap after gap) :
    Text.literal? quote (before ++ (gap ++ after)) =
      (Text.literal? quote after).map fun (content, rest) => (before ++ (gap ++ content), rest) := by
  have hslash : quote ≠ '\\' := by
    rcases hq with rfl | rfl <;> decide
  induction before using Text.literal?.induct quote with
  | case1 => exact literal?_neutral hq hg.neutral after
  | case2 c s ih =>
    rw [Text.literal?_escaped, Option.map_eq_none_iff] at h
    rw [List.cons_append, List.cons_append, Text.literal?_escaped, ih h, Option.map_map]
    rfl
  | case3 s _ =>
    rw [Text.literal?_cons hslash, if_pos rfl] at h
    exact absurd h (Option.some_ne_none _)
  | case4 s hpair _ =>
    have hs : s = [] := by
      cases s with
      | nil => rfl
      | cons c s => exact absurd rfl (hpair c s rfl)
    subst hs
    -- a backslash at the end takes the first character of the gap along
    cases gap with
    | nil =>
      have ha := hg.ne_nil.resolve_left fun h => h rfl
      subst ha
      exact Text.literal?_backslash hslash
    | cons g gap =>
      simp only [List.cons_append, List.nil_append]
      rw [Text.literal?_escaped,
        literal?_neutral hq fun c hc => hg.neutral c (List.mem_cons_of_mem g hc), Option.map_map]
      rfl
  | case5 c s _ hc hb ih =>
    rw [Text.literal?_cons hb, if_neg hc, Option.map_eq_none_iff] at h
    rw [List.cons_append, Text.literal?_cons hb, if_neg hc, ih h, Option.map_map]
    rfl

theorem head?_dropLine {s : Text} {c : Char} (h : c ∈ (s.dropWhile (· != '\n')).head?) :
    c = '\n' := by
  have := List.head?_dropWhile_not (· != '\n') s
  rw [h] at this
  simpa using this

theorem blockEnd_infix_iff {gap : Text} (h : ∀ c ∈ gap, Neutral c) (hne : gap ≠ []) (a b : Text) :
    ['*', '/'] <:+: a ++ (gap ++ b) ↔ ['*', '/'] <:+: a ∨ ['*', '/'] <:+: b := by
  obtain ⟨g, gap, rfl⟩ := List.exists_cons_of_ne_nil hne
  obtain ⟨-, -, -, hslash, -⟩ := h g List.mem_cons_self
  rw [← List.append_assoc, infix_iff_found, infix_iff_found, infix_iff_found,
    found_append_append hne rfl]
  · refine or_congr_right (found_congr_previous ?_ b)
    cases (g :: gap).getLast? <;> rfl
  · intro u hu
    obtain ⟨c, u, rfl⟩ := List.exists_cons_of_ne_nil hu
    cases u with
    | nil => simp [List.isPrefixOf, Ne.symm hslash]
    | cons d u => rfl
  · intro u hu hs
    obtain ⟨c, u, rfl⟩ := List.exists_cons_of_ne_nil hu
    obtain ⟨-, -, -, -, hstar⟩ := h c (hs.mem List.mem_cons_self)
    simp [List.isPrefixOf, Ne.symm hstar]

theorem blockEnd_gap {before after gap : Text} (h : Text.cut? ['*', '/'] before = none)
    (hg : Gap after gap) :
    Text.cut? ['*', '/'] (before ++ (gap ++ after)) =
      (Text.cut? ['*', '/'] after).map fun (content, rest) =>
        (before ++ (gap ++ content), rest) := by
  by_cases hne : gap = []
  · have ha := hg.ne_nil.resolve_left fun h => h hne
    rw [hne, ha, List.append_nil, List.append_nil, h]
    rfl
  have hb := Text.cut?_eq_none_iff.1 h
  cases ha : Text.cut? ['*', '/'] after with
  | none =>
    rw [Option.map_none, Text.cut?_eq_none_iff, blockEnd_infix_iff hg.neutral hne]
    exact not_or.2 ⟨hb, Text.cut?_eq_none_iff.1 ha⟩
  | some found =>
    have hmark : (['*', '/'] : Text) ≠ [] := by decide
    have hc := Text.not_infix_of_cut? hmark ha
    have hsplit : before ++ (gap ++ after) =
        before ++ (gap ++ found.1) ++ ['*', '/'] ++ found.2 := by
      conv_lhs => rw [Text.append_of_cut? ha]
      simp
    rw [hsplit, Option.map_some]
    refine Text.cut?_append hmark ?_ found.2
    rw [List.append_assoc, List.append_assoc, blockEnd_infix_iff hg.neutral hne]
    exact not_or.2 ⟨hb, hc⟩

namespace Enclosure

theorem read_gap {d : Enclosure} {before after gap : Text} (h : d.read before = none)
    (hg : Gap after gap) :
    d.read (before ++ (gap ++ after)) =
      (d.read after).map fun (content, rest) => (before ++ (gap ++ content), rest) := by
  cases d with
  | double => exact literal?_gap (.inl rfl) h hg
  | single => exact literal?_gap (.inr rfl) h hg
  | block => exact blockEnd_gap h hg

theorem read_dropLine {d : Enclosure} {before after : Text} (h : d.read before = none)
    (ha : d.read after = none) : d.read (before ++ after.dropWhile (· != '\n')) = none := by
  have hline : after = after.takeWhile (· != '\n') ++ after.dropWhile (· != '\n') :=
    List.takeWhile_append_dropWhile.symm
  cases hd : after.dropWhile (· != '\n') with
  | nil => rw [List.append_nil, h]
  | cons c rest =>
    have hc : c = '\n' := head?_dropLine (s := after) (by rw [hd]; rfl)
    subst hc
    have hg : Gap rest ['\n'] := ⟨by simp [Neutral], .inl (List.cons_ne_nil _ _)⟩
    rw [hd] at hline
    have hlead : d.read (after.takeWhile (· != '\n')) = none := by
      cases hr : d.read (after.takeWhile (· != '\n')) with
      | none => rfl
      | some found =>
        rw [hline, read_append_of_some hr] at ha
        exact absurd ha (Option.some_ne_none _)
    have hrest : d.read rest = none := by
      have := read_gap hlead hg
      rw [List.singleton_append, ← hline, ha] at this
      exact Option.map_eq_none_iff.1 this.symm
    have := read_gap h hg
    rw [List.singleton_append] at this
    rw [this, hrest]
    rfl

end Enclosure

/-- What may follow code in place of `after`: it completes neither a comment opener nor anything that
`after` leaves open. -/
structure Follows (after t : Text) : Prop where
  head : ∀ c ∈ t.head?, c ≠ '*' ∧ c ≠ '/'
  unclosed : ∀ (d : Enclosure) (s : Text), d.read s = none → d.read after = none →
    d.read (s ++ t) = none

theorem Gap.follows {after gap : Text} (h : Gap after gap) : Follows after (gap ++ after) := by
  refine ⟨?_, fun d s hs ha => ?_⟩
  · intro c hc
    cases gap with
    | nil =>
      rw [h.ne_nil.resolve_left fun hn => hn rfl] at hc
      cases hc
    | cons g gap =>
      cases hc
      obtain ⟨-, -, -, hslash, hstar⟩ := h.neutral _ List.mem_cons_self
      exact ⟨hstar, hslash⟩
  · rw [Enclosure.read_gap hs h, ha]
    rfl

theorem follows_dropLine (after : Text) : Follows after (after.dropWhile (· != '\n')) := by
  refine ⟨fun c hc => ?_, fun d s hs ha => Enclosure.read_dropLine hs ha⟩
  rw [head?_dropLine hc]
  decide

/-- Where the end of `before` stands when code is followed by `after`, whatever gap is between them: in
the open, within something that `after` closes, or in a line comment. -/
inductive Place (before after : Text) : Prop
  | code (ps : List Part) : ps.flatMap Part.source = before →
      (∀ t, Follows after t → parts (before ++ t) = ps ++ parts t) → Place before after
  | enclosed (ps : List Part) (d : Enclosure) (x y rest : Text) :
      ps.flatMap Part.source ++ d.opener ++ x = before → d.read after = some (y, rest) →
      (∀ gap, Gap after gap →
        parts (before ++ (gap ++ after)) = ps ++ d.wrap (x ++ gap ++ y) :: parts rest) →
      Place before after
  | line (ps : List Part) (x : Text) : ps.flatMap Part.source ++ '/' :: '/' :: x = before →
      (∀ t, Follows after t → parts (before ++ t) =
        ps ++ .line (x ++ t.takeWhile (· != '\n')) :: parts (t.dropWhile (· != '\n'))) →
      Place before after

theorem Place.prepend {u s after : Text} (us : List Part) (hu : us.flatMap Part.source = u)
    (h : ∀ t, Follows after t → parts (u ++ (s ++ t)) = us ++ parts (s ++ t))
    (hs : Place s after) : Place (u ++ s) after := by
  cases hs with
  | code ps hsource hparts =>
    refine .code (us ++ ps) ?_ fun t ht => ?_
    · rw [List.flatMap_append, hu, hsource]
    · rw [List.append_assoc, h t ht, hparts t ht, List.append_assoc]
  | enclosed ps d x y rest hsource hread hparts =>
    refine .enclosed (us ++ ps) d x y rest ?_ hread fun gap hg => ?_
    · rw [List.flatMap_append, hu, ← hsource]
      simp
    · rw [List.append_assoc u, h _ hg.follows, hparts gap hg, List.append_assoc us]
  | line ps x hsource hparts =>
    refine .line (us ++ ps) x ?_ fun t ht => ?_
    · rw [List.flatMap_append, hu, ← hsource, List.append_assoc]
    · rw [List.append_assoc, h t ht, hparts t ht, List.append_assoc]

inductive Front : Text → Prop
  | nil : Front []
  | char {c : Char} {s : Text} : c ≠ '"' → c ≠ '\'' → c ≠ '/' → Front (c :: s)
  | opener (d : Enclosure) (s : Text) : Front (d.opener ++ s)
  | line (s : Text) : Front ('/' :: '/' :: s)
  | slash {s : Text} : (∀ c ∈ s.head?, c ≠ '*' ∧ c ≠ '/') → Front ('/' :: s)

theorem front : ∀ s : Text, Front s
  | [] => .nil
  | c :: s => by
    by_cases h₁ : c = '"'
    · subst h₁
      exact .opener .double s
    by_cases h₂ : c = '\''
    · subst h₂
      exact .opener .single s
    by_cases h₃ : c = '/'
    · subst h₃
      cases s with
      | nil => exact .slash fun c hc => by cases hc
      | cons d s =>
        by_cases h₄ : d = '*'
        · subst h₄
          exact .opener .block s
        by_cases h₅ : d = '/'
        · subst h₅
          exact .line s
        exact .slash fun c hc => by cases hc; exact ⟨h₄, h₅⟩
    exact .char h₁ h₂ h₃

theorem place (before after : Text) : Place before after := by
  induction hn : before.length using Nat.strong_induction_on generalizing before with
  | _ n ih =>
    subst hn
    cases front before with
    | nil => exact .code [] rfl fun t _ => rfl
    | @char c s h₁ h₂ h₃ =>
      have hs := ih s.length (by simp) s rfl
      exact hs.prepend (u := [c]) [.other c] rfl fun t _ => parts_char h₁ h₂ h₃ _
    | opener d s =>
      cases hr : d.read s with
      | some found =>
        obtain ⟨content, rest⟩ := found
        have hsplit := Enclosure.append_of_read hr
        have hlt : rest.length < (d.opener ++ s).length := by
          rw [hsplit]
          cases d <;> simp [Enclosure.opener, Enclosure.closer] <;> omega
        have hassoc : d.opener ++ s = (d.wrap content).source ++ rest := by
          rw [Enclosure.source_wrap, hsplit]
          simp
        rw [hassoc]
        refine (ih rest.length hlt rest rfl).prepend [d.wrap content] (by simp) fun t _ => ?_
        rw [← List.append_assoc, ← hassoc, List.append_assoc, Enclosure.parts_opener_append,
          Enclosure.read_append_of_some hr]
        rfl
      | none =>
        cases ha : d.read after with
        | some found =>
          obtain ⟨y, rest⟩ := found
          refine .enclosed [] d s y rest rfl ha fun gap hg => ?_
          rw [List.append_assoc, Enclosure.parts_opener_append, Enclosure.read_gap hr hg, ha]
          simp
        | none =>
          have hlt : s.length < (d.opener ++ s).length := by
            cases d <;> simp [Enclosure.opener]
          refine (ih s.length hlt s rfl).prepend (d.opener.map .other) ?_ fun t ht => ?_
          · cases d <;> rfl
          · rw [Enclosure.parts_opener_append, ht.unclosed d s hr ha]
    | line s =>
      by_cases hl : '\n' ∈ s
      · obtain ⟨content, rest, rfl, hc⟩ := List.eq_append_cons_of_mem hl
        have hassoc : '/' :: '/' :: (content ++ '\n' :: rest) =
            ('/' :: '/' :: content ++ ['\n']) ++ rest := by simp
        rw [hassoc]
        refine (ih rest.length ?_ rest rfl).prepend [.line content, .other '\n'] ?_ fun t _ => ?_
        · simp only [List.length_cons, List.length_append]
          omega
        · simp [Part.source]
        · simp only [List.cons_append, List.append_assoc, List.nil_append]
          rw [parts_line, takeWhile_line hc, dropWhile_line hc,
            parts_char (by decide) (by decide) (by decide)]
      · refine .line [] s rfl fun t _ => ?_
        rw [List.cons_append, List.cons_append, parts_line,
          List.takeWhile_append_of_pos (bne_lineFeed hl),
          List.dropWhile_append_of_pos (bne_lineFeed hl)]
        rfl
    | @slash s h =>
      have hs := ih s.length (by simp) s rfl
      refine hs.prepend (u := ['/']) [.other '/'] rfl fun t ht => parts_slash ?_
      cases s with
      | nil => exact ht.head
      | cons d s => exact h

end MarkupTemplate.Code
