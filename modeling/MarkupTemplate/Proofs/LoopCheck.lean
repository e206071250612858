import Mathlib.Data.List.DropRight
import MarkupTemplate.Loop
import MarkupTemplate.Proofs.CodeContext

/-!
# The check of a loop and of its header

A loop expression is checked as it is written, and the header made from it is not checked again. For
the host language's own form and for the counted form the verdict stays. In the arrow form the parts
around the arrow and the comma are trimmed and joined by other texts, and there are two ways for the
header to fail the check that the expression passes. An inclusion keyword right behind the arrow is
taken for a member's name and stands behind a blank afterwards. And where a line comment ends in the
blanks around an arrow or a comma, its line feed is lost: the comment then runs on to the end of the
next line, and what stood in code may become a literal or a comment, or the other way round.
-/

namespace MarkupTemplate.Code

def partAt : Nat → List Part → Option Part
  | _, [] => none
  | n, p :: ps => if n < p.source.length then some p else partAt (n - p.source.length) ps

/-- The verdict on `before` and `after` when they are joined anew, by a text with a blank at its end and
no line feed in it, where `gap` stood between them and `verdict` was the verdict. -/
def rejoined (before gap after : Text) (verdict : Bool) : Bool :=
  match partAt before.length (parts (before ++ ' ' :: after)) with
  | some (.line _) =>
    if '\n' ∈ gap then isSafe (before ++ after.dropWhile (· != '\n')) else verdict
  | some (.other _) => verdict && (inclusionHere? (strip false after)).isNone
  | _ => verdict

theorem partAt_append (ps : List Part) {p : Part} {n : Nat} (h : n < p.source.length)
    (rest : List Part) :
    partAt ((ps.flatMap Part.source).length + n) (ps ++ p :: rest) = some p := by
  induction ps with
  | nil => simp [partAt, h]
  | cons q ps ih =>
    rw [List.cons_append, partAt, List.flatMap_cons, List.length_append, if_neg (by omega)]
    rw [Nat.add_assoc, Nat.add_sub_cancel_left]
    exact ih

theorem strip_neutral {m : Text} (h : ∀ c ∈ m, Neutral c) (keepDouble : Bool) (rest : Text) :
    strip keepDouble (m ++ rest) = m ++ strip keepDouble rest := by
  have hplain : ∀ c ∈ m, c ≠ '"' ∧ c ≠ '\'' ∧ c ≠ '/' := fun c hc => (h c hc).plain
  rw [strip_append (.of_forall hplain), strip_eq_self hplain]

theorem clean_blank_iff {previous : Option Char} (h : previous.any isWordChar = false)
    (s s' : Text) :
    Clean (some ' ') s s' ↔ Clean previous s s' ∧ (inclusionHere? s).isNone = true := by
  have hword : (some ' ').any isWordChar = previous.any isWordChar := by
    rw [h]
    decide
  have hkey : (some ' ').any bindsKeyword = false := by decide
  have hinclusion : NoInclusion (some ' ') s ↔
      NoInclusion previous s ∧ (inclusionHere? s).isNone = true := by
    cases s with
    | nil =>
      have hnil : ∀ p, NoInclusion p [] := fun p => (clean_nil p).noInclusion
      exact iff_of_true (hnil _) ⟨hnil _, by decide⟩
    | cons c s =>
      unfold NoInclusion
      rw [found_cons, found_cons, hkey]
      cases inclusionHere? (c :: s) <;> simp
  constructor
  · rintro ⟨h₁, h₂, h₃, h₄⟩
    obtain ⟨hi, hn⟩ := hinclusion.1 h₂
    exact ⟨⟨(noCall_congr_previous hword s).1 h₁, hi, h₃, h₄⟩, hn⟩
  · rintro ⟨⟨h₁, h₂, h₃, h₄⟩, hn⟩
    exact ⟨(noCall_congr_previous hword s).2 h₁, hinclusion.2 ⟨h₂, hn⟩, h₃, h₄⟩

structure Joint (m : Text) : Prop extends Barrier m where
  neutral : ∀ c ∈ m, Neutral c
  last : m.getLast?.any isWordChar = false

theorem Joint.gap {m : Text} (h : Joint m) (after : Text) : Gap after m :=
  ⟨h.neutral, .inl h.ne_nil⟩

structure Joint.Flat (m : Text) : Prop extends Joint m where
  blank : m.getLast? = some ' '
  noLineFeed : '\n' ∉ m

theorem stripped_wrap (d : Enclosure) (content other : Text) :
    (d.wrap content).stripped false = (d.wrap other).stripped false := by
  cases d <;> rfl

section Rejoin

variable {before after gap join : Text}

theorem clean_code_iff {m : Text} (hm : Joint m) {ps : List Part}
    (hparts : ∀ t, Follows after t → parts (before ++ t) = ps ++ parts t) :
    isSafe (before ++ (m ++ after)) = true ↔
      Clean none (ps.flatMap (Part.stripped false)) (ps.flatMap (Part.stripped true)) ∧
        Clean m.getLast? (strip false after) (strip true after) := by
  have hstrip : ∀ keepDouble, strip keepDouble (before ++ (m ++ after)) =
      ps.flatMap (Part.stripped keepDouble) ++ (m ++ strip keepDouble after) := by
    intro keepDouble
    rw [← strip_neutral hm.neutral, strip, hparts _ (hm.gap after).follows, List.flatMap_append]
    rfl
  rw [isSafe_iff, hstrip, hstrip, hm.clean_iff]

theorem isSafe_enclosed {d : Enclosure} {ps : List Part} {x y rest : Text} (hg : Joint gap)
    (hj : Joint join)
    (hparts : ∀ g, Gap after g →
      parts (before ++ (g ++ after)) = ps ++ d.wrap (x ++ g ++ y) :: parts rest) :
    isSafe (before ++ (join ++ after)) = isSafe (before ++ (gap ++ after)) := by
  have hstrip : ∀ {m : Text}, Joint m → ∀ keepDouble, strip keepDouble (before ++ (m ++ after)) =
      ps.flatMap (Part.stripped keepDouble) ++
        ((d.wrap (x ++ m ++ y)).stripped keepDouble ++ strip keepDouble rest) := by
    intro m hm keepDouble
    rw [strip, hparts m (hm.gap after), List.flatMap_append, List.flatMap_cons]
    rfl
  have hfalse : strip false (before ++ (join ++ after)) =
      strip false (before ++ (gap ++ after)) := by
    rw [hstrip hg, hstrip hj, stripped_wrap d]
  have hglobal : NoSuperglobal (strip true (before ++ (join ++ after))) ↔
      NoSuperglobal (strip true (before ++ (gap ++ after))) := by
    rw [hstrip hg, hstrip hj]
    cases d with
    | single => rfl
    | block => rfl
    | double =>
      -- the literal is kept, and no name reaches across either text
      have hassoc : ∀ m : Text, ps.flatMap (Part.stripped true) ++
          ((Enclosure.double.wrap (x ++ m ++ y)).stripped true ++ strip true rest) =
            (ps.flatMap (Part.stripped true) ++ '"' :: x) ++ (m ++ (y ++ '"' :: strip true rest)) := by
        intro m
        simp [Enclosure.wrap, Part.stripped]
      rw [hassoc, hassoc, hg.noSuperglobal_iff, hj.noSuperglobal_iff]
  rw [Bool.eq_iff_iff, isSafe_iff, isSafe_iff, hfalse]
  constructor
  · intro h
    exact { h with noSuperglobal := hglobal.1 h.noSuperglobal }
  · intro h
    exact { h with noSuperglobal := hglobal.2 h.noSuperglobal }

theorem strip_line_append {ps : List Part} {x : Text}
    (hparts : ∀ t, Follows after t → parts (before ++ t) =
      ps ++ .line (x ++ t.takeWhile (· != '\n')) :: parts (t.dropWhile (· != '\n')))
    {t : Text} (ht : Follows after t) (keepDouble : Bool) :
    strip keepDouble (before ++ t) =
      ps.flatMap (Part.stripped keepDouble) ++ strip keepDouble (t.dropWhile (· != '\n')) := by
  rw [strip, hparts t ht, List.flatMap_append, List.flatMap_cons]
  rfl

theorem isSafe_join (hg : Joint gap) (hj : Joint.Flat join) :
    isSafe (before ++ (join ++ after)) =
      rejoined before gap after (isSafe (before ++ (gap ++ after))) := by
  have hblank : Gap after [' '] := ⟨Text.forall_of_all (by decide), .inl (by decide)⟩
  cases place before after with
  | code ps hsource hparts =>
    have hat : partAt before.length (parts (before ++ ' ' :: after)) = some (.other ' ') := by
      have hp := hparts _ hblank.follows
      rw [List.singleton_append, parts_char (by decide) (by decide) (by decide)] at hp
      rw [hp, ← hsource]
      exact partAt_append ps (n := 0) (by decide) _
    rw [rejoined, hat, Bool.eq_iff_iff, Bool.and_eq_true, clean_code_iff hj.toJoint hparts,
      clean_code_iff hg hparts, hj.blank, clean_blank_iff hg.last, and_assoc]
  | enclosed ps d x y rest hsource _ hparts =>
    have hat : partAt before.length (parts (before ++ ' ' :: after)) =
        some (d.wrap (x ++ [' '] ++ y)) := by
      have hp := hparts _ hblank
      rw [List.singleton_append] at hp
      rw [hp, ← hsource, List.append_assoc, List.length_append]
      refine partAt_append ps ?_ _
      rw [Enclosure.source_wrap]
      simp only [List.length_append, List.length_singleton]
      omega
    rw [isSafe_enclosed hg hj.toJoint hparts, rejoined, hat]
    cases d <;> rfl
  | line ps x hsource hparts =>
    have hat : ∃ content, partAt before.length (parts (before ++ ' ' :: after)) =
        some (.line content) := by
      have hp := hparts _ hblank.follows
      rw [List.singleton_append] at hp
      rw [hp, ← hsource, List.length_append]
      refine ⟨_, partAt_append ps ?_ _⟩
      simp [Part.source]
    have hdrop : (join ++ after).dropWhile (· != '\n') = after.dropWhile (· != '\n') :=
      List.dropWhile_append_of_pos (bne_lineFeed hj.noLineFeed)
    have hjoin := strip_line_append hparts (hj.toJoint.gap after).follows
    obtain ⟨content, hat⟩ := hat
    rw [rejoined, hat]
    dsimp only
    split
    · refine isSafe_eq_of_strip fun keepDouble => ?_
      rw [hjoin, strip_line_append hparts (follows_dropLine after), hdrop,
        List.dropWhile_idempotent (· != '\n') after]
    · next hl =>
      refine isSafe_eq_of_strip fun keepDouble => ?_
      rw [hjoin, strip_line_append hparts (hg.gap after).follows, hdrop,
        List.dropWhile_append_of_pos (bne_lineFeed hl)]

end Rejoin

theorem stops_of_blanks (blanks : Text) (hb : blanks.all isBlank = true) {c : Char}
    (hblank : isBlank c = false) (hword : blanks = [] → isWordChar c = false)
    (hc : c ≠ '(' ∧ c ≠ '\'' ∧ c ≠ '"' ∧ c ≠ '$') (t : Text) : Stops (blanks ++ c :: t) := by
  have htrim : Text.trimStart (blanks ++ c :: t) = c :: t := by
    rw [Text.trimStart, List.dropWhile_append_of_pos (List.all_eq_true.1 hb),
      List.dropWhile_cons_of_neg (by rw [hblank]; exact Bool.false_ne_true)]
  refine ⟨fun d hd => ?_, fun d hd => ?_⟩
  · cases blanks with
    | nil =>
      cases hd
      exact ⟨hword rfl, hc.2.2.2⟩
    | cons b blanks =>
      cases hd
      obtain ⟨-, hk, -, hdollar, -⟩ := blank_spec (List.all_eq_true.1 hb _ List.mem_cons_self)
      exact ⟨isWordChar_of_bindsKeyword hk, hdollar⟩
  · rw [htrim] at hd
    cases hd
    exact hc

def Around (mark gap : Text) : Prop :=
  ∃ a b, a.all isBlank = true ∧ b.all isBlank = true ∧ gap = a ++ mark ++ b

theorem joint_around {c : Char} {mark gap : Text} (h : Around (c :: mark) gap)
    (hblank : isBlank c = false) (hmark : Closer (c :: mark)) : Joint gap := by
  obtain ⟨a, b, ha, hb, rfl⟩ := h
  have hcloser : Closer (a ++ c :: mark ++ b) := by
    intro d hd
    rcases List.mem_append.1 hd with hd | hd
    · rcases List.mem_append.1 hd with hd | hd
      · exact closer_of_blanks ha d hd
      · exact hmark d hd
    · exact closer_of_blanks hb d hd
  obtain ⟨⟨hdouble, hsingle, -⟩, hword, hparen, hdollar, -⟩ := hmark c List.mem_cons_self
  refine ⟨⟨hcloser.inert, by simp, fun t => ?_⟩, fun d hd => (hcloser d hd).1, ?_⟩
  · rw [List.append_assoc, List.append_assoc, List.cons_append]
    exact stops_of_blanks a ha hblank (fun _ => hword) ⟨hparen, hsingle, hdouble, hdollar⟩ _
  · cases hl : (a ++ c :: mark ++ b).getLast? with
    | none => rfl
    | some d => exact (hcloser d (List.mem_of_getLast? hl)).2.1

theorem flat_as : Joint.Flat " as ".toList := by
  have hneutral : ∀ c ∈ " as ".toList, Neutral c := Text.forall_of_all (by decide)
  refine ⟨⟨⟨.of_isInert (by decide +kernel), by decide, fun t => ?_⟩, hneutral, by decide⟩,
    by decide, by decide⟩
  exact stops_of_blanks [' '] (by decide) (by decide) (by decide) (by decide) _

theorem flat_arrow : Joint.Flat " => ".toList := by
  have hgap : Around ['=', '>'] " => ".toList := ⟨[' '], [' '], by decide, by decide, by decide⟩
  exact ⟨joint_around hgap (by decide) (Text.forall_of_all (by decide +kernel)), by decide, by decide⟩

end MarkupTemplate.Code

namespace MarkupTemplate.Loop

open Code

/-- The verdict on the header of a loop, where the trimmed expression `expr` is safe. -/
inductive HeaderVerdict (expr : Text) : Loop → Bool → Prop
  | native : HeaderVerdict expr (.native expr) true
  | counted : HeaderVerdict expr (.counted expr) true
  | values {collection gap value : Text} : Around arrow gap → expr = collection ++ gap ++ value →
      HeaderVerdict expr (.values collection value) (rejoined collection gap value true)
  | pairs {collection gap key comma value : Text} : Around arrow gap → Around [','] comma →
      expr = collection ++ gap ++ key ++ comma ++ value →
      HeaderVerdict expr (.pairs collection key value)
        (rejoined (collection ++ " as ".toList ++ key) comma value
          (rejoined collection gap (key ++ comma ++ value) true))

def content : Loop → Text
  | native expr => expr
  | values collection value => collection ++ (" as ".toList ++ value)
  | pairs collection key value =>
    collection ++ " as ".toList ++ key ++ (" => ".toList ++ value)
  | counted expr => expr

def keyword : Loop → Text
  | native _ | values .. | pairs .. => "foreach(".toList
  | counted _ => "for(".toList

theorem header_eq (loop : Loop) : loop.header = loop.keyword ++ loop.content ++ [')'] := by
  cases loop with
  | native expr => rfl
  | counted expr => rfl
  | values collection value =>
    change "foreach(".toList ++ collection ++ " as ".toList ++ value ++ [')'] =
      "foreach(".toList ++ (collection ++ (" as ".toList ++ value)) ++ [')']
    simp only [List.append_assoc]
  | pairs collection key value =>
    change "foreach(".toList ++ collection ++ " as ".toList ++ key ++ " => ".toList ++ value ++
      [')'] = "foreach(".toList ++ (collection ++ " as ".toList ++ key ++
        (" => ".toList ++ value)) ++ [')']
    simp only [List.append_assoc]

theorem opening_eq (loop : Loop) :
    loop.opening = "<?php ".toList ++ loop.keyword ++ loop.content ++ ([')'] ++ ": ?>".toList) := by
  change "<?php ".toList ++ loop.header ++ ": ?>".toList = _
  rw [header_eq]
  simp only [List.append_assoc]

theorem opener_foreach : Opener ("<?php ".toList ++ "foreach(".toList) :=
  ⟨.of_isInert (by decide +kernel), Text.forall_of_all (by decide), by decide⟩

theorem opener_for : Opener ("<?php ".toList ++ "for(".toList) :=
  ⟨.of_isInert (by decide +kernel), Text.forall_of_all (by decide), by decide⟩

theorem opener_keyword (loop : Loop) : Opener ("<?php ".toList ++ loop.keyword) := by
  cases loop with
  | counted expr => exact opener_for
  | _ => exact opener_foreach

theorem closer_header : Closer ([')'] ++ ": ?>".toList) :=
  Text.forall_of_all (by decide +kernel)

theorem isSafe_opening (loop : Loop) : isSafe loop.opening = isSafe loop.content := by
  rw [opening_eq, closer_header.isSafe_append, loop.opener_keyword.isSafe_append]

theorem joint_arrow {gap : Text} (h : Around arrow gap) : Joint gap :=
  joint_around h (by decide) (Text.forall_of_all (by decide +kernel))

theorem joint_comma {gap : Text} (h : Around [','] gap) : Joint gap :=
  joint_around h (by decide) (Text.forall_of_all (by decide +kernel))

theorem isSafe_content_values {collection gap value : Text} (hg : Around arrow gap) :
    isSafe (content (.values collection value)) =
      rejoined collection gap value (isSafe (collection ++ gap ++ value)) := by
  rw [List.append_assoc]
  exact isSafe_join (joint_arrow hg) flat_as

theorem isSafe_content_pairs {collection gap key comma value : Text} (hg : Around arrow gap)
    (hc : Around [','] comma) :
    isSafe (content (.pairs collection key value)) =
      rejoined (collection ++ " as ".toList ++ key) comma value
        (rejoined collection gap (key ++ comma ++ value)
          (isSafe (collection ++ gap ++ key ++ comma ++ value))) := by
  have hfirst : rejoined collection gap (key ++ comma ++ value)
      (isSafe (collection ++ (gap ++ (key ++ comma ++ value)))) =
        isSafe (collection ++ (" as ".toList ++ (key ++ comma ++ value))) :=
    (isSafe_join (joint_arrow hg) flat_as).symm
  have hassoc : ∀ gap : Text, collection ++ (gap ++ (key ++ comma ++ value)) =
      collection ++ gap ++ key ++ (comma ++ value) := fun gap => by simp
  rw [hassoc, hassoc] at hfirst
  rw [List.append_assoc (collection ++ gap ++ key), hfirst]
  exact isSafe_join (joint_comma hc) flat_arrow

theorem exists_around {mark s left right : Text} (h : Text.cut? mark s = some (left, right))
    (hhead : ∀ c ∈ s.head?, isBlank c = false) (hlast : ∀ c ∈ s.getLast?, isBlank c = false) :
    ∃ gap, Around mark gap ∧ s = Text.trim left ++ gap ++ Text.trim right := by
  have hs := Text.append_of_cut? h
  rw [hs] at hhead hlast
  rw [List.append_assoc] at hhead
  obtain ⟨a, ha, hleft⟩ := Text.exists_trim_append (mark ++ right) hhead
  obtain ⟨b, hb, hright⟩ := Text.exists_append_trim (left ++ mark) hlast
  refine ⟨a ++ mark ++ b, ⟨a, b, ha, hb, rfl⟩, ?_⟩
  conv_lhs => rw [hs, hleft, hright]
  simp only [List.append_assoc]

theorem exists_verdict_ofArrow {expr left right : Text} {loop : Loop}
    (hcut : Text.cut? arrow expr = some (left, right))
    (hhead : ∀ c ∈ expr.head?, isBlank c = false) (hlast : ∀ c ∈ expr.getLast?, isBlank c = false)
    (h : ofArrow expr left right = .ok loop) : ∃ verdict, HeaderVerdict expr loop verdict := by
  obtain ⟨gap, hgap, hexpr⟩ := exists_around hcut hhead hlast
  unfold ofArrow at h
  dsimp only at h
  split at h
  · cases h
  split at h
  · next key value hnames =>
    cases h
    obtain ⟨comma, hcomma, hsplit⟩ := exists_around hnames
      (fun c hc => Text.not_isBlank_head?_trim hc) (fun c hc => Text.not_isBlank_getLast?_trim hc)
    refine ⟨_, .pairs hgap hcomma ?_⟩
    rw [hexpr, hsplit]
    simp only [List.append_assoc]
  · cases h
    exact ⟨_, .values hgap hexpr⟩

theorem exists_verdict {expr : Text} {loop : Loop} (h : read expr = .ok loop) :
    ∃ verdict, HeaderVerdict (Text.trim expr) loop verdict := by
  unfold read ofTrimmed at h
  split at h
  · cases h
  split at h
  · cases h
    exact ⟨true, .native⟩
  split at h
  · next left right hcut =>
    exact exists_verdict_ofArrow hcut (fun c hc => Text.not_isBlank_head?_trim hc)
      (fun c hc => Text.not_isBlank_getLast?_trim hc) h
  · cases h
    exact ⟨true, .counted⟩

theorem HeaderVerdict.isSafe_eq {expr : Text} {loop : Loop} {verdict : Bool}
    (h : HeaderVerdict expr loop verdict) (hsafe : isSafe expr = true) :
    isSafe loop.opening = verdict := by
  rw [isSafe_opening]
  cases h with
  | native => exact hsafe
  | counted => exact hsafe
  | values hgap hexpr => rw [isSafe_content_values hgap, ← hexpr, hsafe]
  | pairs hgap hcomma hexpr => rw [isSafe_content_pairs hgap hcomma, ← hexpr, hsafe]

/-- The header made from a safe loop expression is safe, in the arrow form exactly where the parts of
the expression are when they are joined anew. -/
theorem opening_verdict {expr : Text} {loop : Loop} (hsafe : isSafe expr = true)
    (hread : read expr = .ok loop) (verdict : Bool) :
    isSafe loop.opening = verdict ↔ HeaderVerdict (Text.trim expr) loop verdict := by
  rw [← isSafe_trim] at hsafe
  obtain ⟨actual, hactual⟩ := exists_verdict hread
  constructor
  · intro h
    rw [← h, hactual.isSafe_eq hsafe]
    exact hactual
  · intro h
    exact h.isSafe_eq hsafe

theorem opening_verdict_inclusion :
    isSafe "$a=>include 'x'".toList = true ∧
      read "$a=>include 'x'".toList = .ok (.values "$a".toList "include 'x'".toList) ∧
      HeaderVerdict (Text.trim "$a=>include 'x'".toList)
        (.values "$a".toList "include 'x'".toList) false := by
  have hsafe : isSafe "$a=>include 'x'".toList = true := by decide +kernel
  have hread : read "$a=>include 'x'".toList =
      .ok (.values "$a".toList "include 'x'".toList) := by
    decide +kernel
  exact ⟨hsafe, hread, (opening_verdict hsafe hread false).1 (by decide +kernel)⟩

theorem not_forall_isSafe_opening :
    ¬ ∀ expr loop, isSafe expr = true → read expr = .ok loop → isSafe loop.opening = true := by
  intro h
  have hread : read "$a=>include 'x'".toList =
      .ok (.values "$a".toList "include 'x'".toList) := by
    decide +kernel
  have hheader := h _ _ (by decide +kernel) hread
  exact absurd hheader (by decide +kernel)

example : isSafe "$a //\n=> /*\n exec(1) */".toList = true ∧
    isSafe (opening (.values "$a //".toList "/*\n exec(1) */".toList)) = false := by
  decide +kernel

end MarkupTemplate.Loop
