import MarkupTemplate.Asset.Injection
import MarkupTemplate.Proofs.HostOpening

/-!
# Where assets are injected

Lines go before the first closing tag of their element. Whether one begins at a place is decided by the
few characters there, up to the one behind its name, and by a closing bracket further on. So a place is
found again when the text behind it changes, as long as that begins with a character that no closing tag
has there. In particular the lines for the head do not get in the way of those for the body: a page with
its assets is the page with two texts put in at places of the page itself.
-/

namespace MarkupTemplate

namespace Injection

def place? (name : Text) : Text → Option Nat
  | [] => none
  | c :: s => if closesHere name (c :: s) then some 0 else (place? name s).map (· + 1)

/-- A text with `inserted k` before its character at `k`. -/
def weave (inserted : Nat → Text) : Text → Text
  | [] => []
  | c :: s => inserted 0 ++ c :: weave (fun k => inserted (k + 1)) s

section Weave

variable {inserted : Nat → Text}

theorem weave_append (inserted : Nat → Text) (a b : Text) :
    weave inserted (a ++ b) = weave inserted a ++ weave (fun k => inserted (a.length + k)) b := by
  induction a generalizing inserted with
  | nil => simp [weave]
  | cons c a ih => simp [weave, ih, Nat.add_right_comm]

theorem weave_eq_self {s : Text} (h : ∀ k < s.length, inserted k = []) : weave inserted s = s := by
  induction s generalizing inserted with
  | nil => rfl
  | cons c s ih =>
    have hfirst := h 0 (Nat.zero_lt_succ _)
    have hrest := ih fun k hk => h (k + 1) (Nat.succ_lt_succ hk)
    rw [weave, hfirst, hrest, List.nil_append]

theorem weave_eq_append {s : Text} (hs : s ≠ []) (h : ∀ k, 0 < k → k < s.length → inserted k = []) :
    weave inserted s = inserted 0 ++ s := by
  cases s with
  | nil => exact absurd rfl hs
  | cons c s =>
    rw [weave, weave_eq_self fun k hk => h (k + 1) (Nat.succ_pos k) (Nat.succ_lt_succ hk)]

theorem weave_one {x z : Text} (hz : z ≠ []) (helse : ∀ k, k ≠ x.length → inserted k = []) :
    weave inserted (x ++ z) = x ++ inserted x.length ++ z := by
  have hx : weave inserted x = x :=
    weave_eq_self fun k hk => helse k (by omega)
  have hrest : weave (fun k => inserted (x.length + k)) z = inserted x.length ++ z :=
    weave_eq_append hz fun k hk _ => helse _ (by omega)
  rw [weave_append, hx, hrest, List.append_assoc]

theorem weave_two {x y z : Text} (hy : y ≠ []) (hz : z ≠ [])
    (helse : ∀ k, k ≠ x.length → k ≠ x.length + y.length → inserted k = []) :
    weave inserted (x ++ (y ++ z)) =
      x ++ inserted x.length ++ y ++ inserted (x.length + y.length) ++ z := by
  have hx : weave inserted x = x :=
    weave_eq_self fun k hk => helse k (by omega) (by omega)
  have hmiddle : weave (fun k => inserted (x.length + k)) y = inserted x.length ++ y :=
    weave_eq_append hy fun k hk _ => helse _ (by omega) (by omega)
  have hrest : weave (fun k => inserted (x.length + (y.length + k))) z =
      inserted (x.length + y.length) ++ z :=
    weave_eq_append hz fun k hk _ => helse _ (by omega) (by omega)
  rw [weave_append, hx, weave_append, hmiddle, hrest]
  simp only [List.append_assoc]

end Weave

def Begins (name s : Text) : Prop :=
  ∃ w c rest, s = '<' :: '/' :: (w ++ c :: rest) ∧ Text.Spells name w ∧
    (isBlank c || c == '/' || c == '>') = true

/-- A character that no closing tag has behind its first one, up to the character that ends its name. -/
structure Foreign (d : Char) : Prop where
  word : isWordChar d = false
  stop : (isBlank d || d == '/' || d == '>') = false

theorem foreign_lt : Foreign '<' :=
  ⟨by decide +kernel, by decide +kernel⟩

theorem foreign_question : Foreign '?' :=
  ⟨by decide +kernel, by decide +kernel⟩

section Search

variable {name : Text} (hname : ∀ p ∈ name, isAsciiWordChar p = true)
include hname

theorem closesHere_iff {s : Text} : closesHere name s = true ↔ Begins name s ∧ '>' ∈ s := by
  constructor
  · intro h
    unfold closesHere at h
    split at h
    · next t ht =>
      split at h
      · next w c rest hword =>
        obtain ⟨rfl, hw⟩ := Text.dropWord?_eq_some_iff.1 hword
        rw [Text.isPrefixOf?_eq_some_iff.1 ht]
        rw [Bool.and_eq_true, List.contains_iff_mem] at h
        exact ⟨⟨w, c, rest, rfl, hw, h.1⟩, by simp [List.mem_cons.1 h.2]⟩
      · cases h
    · cases h
  · rintro ⟨⟨w, c, rest, rfl, hw, hc⟩, hmem⟩
    have hend : '>' ∈ c :: rest := by
      have hword : '>' ∉ w := fun hm => absurd (hw.isWordChar hname '>' hm) (by decide +kernel)
      simpa [hword] using hmem
    have hmark : List.isPrefixOf? ['<', '/'] ('<' :: '/' :: (w ++ c :: rest)) = some (w ++ c :: rest) :=
      Text.isPrefixOf?_eq_some_iff.2 rfl
    rw [closesHere, hmark]
    simp [hw.dropWord?, hc, hend]

theorem begins_append_iff {s t : Text} {d : Char} (hs : s ≠ []) (hd : Foreign d) :
    Begins name (s ++ d :: t) ↔ Begins name s := by
  constructor
  · rintro ⟨w, c, rest, he, hw, hc⟩
    cases s with
    | nil => exact absurd rfl hs
    | cons x s =>
      rw [List.cons_append, List.cons.injEq] at he
      obtain ⟨rfl, he⟩ := he
      have hforeign : d ∉ '/' :: (w ++ [c]) := by
        rw [List.mem_cons, List.mem_append, List.mem_singleton, not_or, not_or]
        have hstop := hd.stop
        refine ⟨?_, fun hm => ?_, ?_⟩
        · rintro rfl
          simp at hstop
        · exact absurd (hw.isWordChar hname d hm) (Bool.eq_false_iff.1 hd.word)
        · rintro rfl
          exact absurd hc (Bool.eq_false_iff.1 hd.stop)
      have hprefix : '/' :: (w ++ [c]) <+: s ++ d :: t := ⟨rest, by simp [he]⟩
      obtain ⟨u, rfl⟩ := Text.prefix_of_prefix_append_cons hforeign hprefix
      exact ⟨w, c, u, by simp, hw, hc⟩
  · rintro ⟨w, c, rest, rfl, hw, hc⟩
    exact ⟨w, c, rest ++ d :: t, by simp, hw, hc⟩

theorem closesHere_append_congr {s t t' : Text} {d d' : Char} (hs : s ≠ []) (hd : Foreign d)
    (hd' : Foreign d') (ht : '>' ∈ d :: t) (ht' : '>' ∈ d' :: t') :
    closesHere name (s ++ d :: t) = closesHere name (s ++ d' :: t') := by
  rw [Bool.eq_iff_iff, closesHere_iff hname, closesHere_iff hname, begins_append_iff hname hs hd,
    begins_append_iff hname hs hd']
  simp only [List.mem_append, ht, ht', or_true]

end Search

section Place

variable {name : Text}

theorem place?_cons (name : Text) (c : Char) (s : Text) :
    place? name (c :: s) =
      if closesHere name (c :: s) then some 0 else (place? name s).map (· + 1) := by
  rw [place?]

theorem place?_cons_of_ne {c : Char} (hc : c ≠ '<') (s : Text) :
    place? name (c :: s) = (place? name s).map (· + 1) := by
  have hmark : List.isPrefixOf? ['<', '/'] (c :: s) = none := by
    simp [List.isPrefixOf?, hc.symm]
  rw [place?_cons, closesHere, hmark]
  rfl

theorem place?_append_of_not_mem {u : Text} (h : '<' ∉ u) (s : Text) :
    place? name (u ++ s) = (place? name s).map (u.length + ·) := by
  induction u with
  | nil => simp
  | cons c u ih =>
    rw [List.mem_cons, not_or] at h
    rw [List.cons_append, place?_cons_of_ne (Ne.symm h.1), ih h.2, Option.map_map]
    refine Option.map_congr fun k _ => ?_
    simp [Nat.add_right_comm]

theorem exists_of_place? {s : Text} {k : Nat} (h : place? name s = some k) :
    ∃ before rest, s = before ++ rest ∧ before.length = k ∧ closesHere name rest = true := by
  induction s generalizing k with
  | nil => cases h
  | cons c s ih =>
    rw [place?_cons] at h
    split_ifs at h with hc
    · cases h
      exact ⟨[], c :: s, rfl, rfl, hc⟩
    · obtain ⟨j, hj, rfl⟩ := Option.map_eq_some_iff.1 h
      obtain ⟨before, rest, rfl, rfl, hrest⟩ := ih hj
      exact ⟨c :: before, rest, rfl, rfl, hrest⟩

theorem ne_nil_of_closesHere {s : Text} (h : closesHere name s = true) : s ≠ [] := by
  rintro rfl
  cases h

theorem place?_of_append {a b : Text} {k : Nat} (h : place? name (a ++ b) = some (a.length + k)) :
    place? name b = some k := by
  induction a with
  | nil => simpa using h
  | cons c a ih =>
    rw [List.cons_append, place?_cons] at h
    split_ifs at h with hc
    · rw [Option.some_inj, List.length_cons] at h
      omega
    · obtain ⟨j, hj, he⟩ := Option.map_eq_some_iff.1 h
      refine ih (hj.trans (congrArg some ?_))
      rw [List.length_cons] at he
      omega

theorem place?_append_cases {a t t' : Text}
    (h : ∀ v, v ≠ [] → v <:+ a → closesHere name (v ++ t) = closesHere name (v ++ t')) :
    (∃ k < a.length, place? name (a ++ t) = some k ∧ place? name (a ++ t') = some k) ∨
      (place? name (a ++ t) = (place? name t).map (a.length + ·) ∧
        place? name (a ++ t') = (place? name t').map (a.length + ·)) := by
  induction a with
  | nil => exact .inr ⟨by simp, by simp⟩
  | cons c a ih =>
    have hfirst := h (c :: a) (List.cons_ne_nil c a) List.suffix_rfl
    rw [List.cons_append, List.cons_append] at hfirst ⊢
    rw [place?_cons, place?_cons, ← hfirst]
    by_cases hc : closesHere name (c :: (a ++ t)) = true
    · rw [if_pos hc, if_pos hc]
      exact .inl ⟨0, Nat.zero_lt_succ _, rfl, rfl⟩
    · rw [if_neg hc, if_neg hc]
      have hshift : ∀ place : Option Nat,
          (place.map (a.length + ·)).map (· + 1) = place.map ((c :: a).length + ·) := by
        intro place
        cases place <;> simp [Nat.add_right_comm]
      rcases ih fun v hv hs => h v hv (hs.trans (List.suffix_cons c a)) with
        ⟨k, hk, ht, ht'⟩ | ⟨ht, ht'⟩
      · exact .inl ⟨k + 1, Nat.succ_lt_succ hk, by rw [ht]; rfl, by rw [ht']; rfl⟩
      · exact .inr ⟨by rw [ht, hshift], by rw [ht', hshift]⟩

theorem splitAtClosing?_eq (name s : Text) :
    splitAtClosing? name s = (place? name s).map fun k => (s.take k, s.drop k) := by
  induction s with
  | nil => rfl
  | cons c s ih =>
    rw [splitAtClosing?, place?_cons, ih]
    split_ifs
    · rfl
    · rw [Option.map_map, Option.map_map]
      rfl

theorem text_insert_of_none {s : Text} (h : place? name s = none) (lines : List Text) :
    (insert name lines s).text = s := by
  cases lines <;> simp [insert, insertBefore?, splitAtClosing?_eq, h]

theorem text_insert_of_some {before rest : Text} (h : place? name (before ++ rest) = some before.length)
    (lines : List Text) :
    (insert name lines (before ++ rest)).text = before ++ linesText lines ++ rest := by
  cases lines <;> simp [insert, insertBefore?, splitAtClosing?_eq, h, linesText]

end Place

def headTag : Text :=
  "head".toList

def bodyTag : Text :=
  "body".toList

theorem isAsciiWordChar_headTag : ∀ p ∈ headTag, isAsciiWordChar p = true :=
  Text.forall_of_all (by decide)

theorem isAsciiWordChar_bodyTag : ∀ p ∈ bodyTag, isAsciiWordChar p = true :=
  Text.forall_of_all (by decide)

theorem place?_tag {name u : Text} (hu : '<' ∉ u) (s : Text)
    (hopen : closesHere name ('<' :: (u ++ s)) = false) :
    place? name ('<' :: u ++ s) = (place? name s).map (('<' :: u).length + ·) := by
  rw [List.cons_append, place?_cons, hopen, place?_append_of_not_mem hu]
  cases place? name s <;> simp [Nat.add_right_comm]

theorem place?_html (d : Declaration) (s : Text) :
    place? bodyTag (d.html ++ s) = (place? bodyTag s).map (d.html.length + ·) := by
  have htarget := Text.not_mem_escape (c := '<') (by decide) d.target
  cases hk : d.kind with
  | css =>
    have hmedia := Text.not_mem_escape (c := '<') (by decide) (d.media.getD [])
    have hhtml : d.html = '<' :: ("link rel=\"stylesheet\" href=\"".toList ++ Text.escape d.target ++
        "\" media=\"".toList ++ Text.escape (d.media.getD []) ++ "\">".toList) := by
      rw [Declaration.html, hk]
      simp
    rw [hhtml]
    exact place?_tag (by simp [htarget, hmedia]) s rfl
  | js =>
    have hhtml : d.html = '<' :: ("script src=\"".toList ++ Text.escape d.target ++ "\">".toList) ++
        '<' :: "/script>".toList := by
      rw [Declaration.html, hk]
      simp
    rw [hhtml, List.append_assoc, place?_tag (by simp [htarget]) _ rfl,
      place?_tag (by decide) s rfl, Option.map_map]
    refine Option.map_congr fun k _ => ?_
    simp only [Function.comp_apply, List.length_append, List.length_cons]
    omega

theorem place?_linesText {lines : List Text} (h : ∀ line ∈ lines, ∃ d : Declaration, line = d.html)
    (s : Text) :
    place? bodyTag (linesText lines ++ s) =
      (place? bodyTag s).map ((linesText lines).length + ·) := by
  induction lines with
  | nil => simp [linesText]
  | cons line lines ih =>
    rw [List.forall_mem_cons] at h
    obtain ⟨d, rfl⟩ := h.1
    have hlines : linesText (d.html :: lines) = d.html ++ ('\n' :: linesText lines) := by
      simp [linesText]
    rw [hlines, List.append_assoc, place?_html, List.cons_append,
      place?_cons_of_ne (by decide), ih h.2, Option.map_map, Option.map_map]
    refine Option.map_congr fun k _ => ?_
    simp only [Function.comp_apply, List.length_append, List.length_cons]
    omega

theorem head?_linesText {lines : List Text} (h : ∀ line ∈ lines, ∃ d : Declaration, line = d.html)
    (s : Text) : ∃ t, linesText lines ++ '<' :: s = '<' :: t := by
  cases lines with
  | nil => exact ⟨s, rfl⟩
  | cons line lines =>
    rw [List.forall_mem_cons] at h
    obtain ⟨d, rfl⟩ := h.1
    obtain ⟨u, hu⟩ : ∃ u, d.html = '<' :: u := by
      cases hk : d.kind <;> rw [Declaration.html, hk]
      · exact ⟨_, rfl⟩
      · exact ⟨_, rfl⟩
    exact ⟨u ++ '\n' :: linesText lines ++ '<' :: s, by simp [linesText, hu]⟩

end Injection

namespace Assets

open Injection

theorem exists_of_mem_headLines (assets : Assets) :
    ∀ line ∈ assets.headLines, ∃ d : Declaration, line = d.html := by
  intro line hl
  obtain ⟨asset, -, rfl⟩ := List.mem_map.1 hl
  exact ⟨asset.declaration, rfl⟩

def inserted (assets : Assets) (page : Text) (k : Nat) : Text :=
  (if place? headTag page = some k then linesText assets.headLines else []) ++
    (if place? bodyTag page = some k then linesText assets.bodyLines else [])

theorem place?_body_cases (assets : Assets) (before : Text) {rest : Text}
    (hrest : closesHere headTag rest = true) :
    (∃ k < before.length,
      place? bodyTag (before ++ (linesText assets.headLines ++ rest)) = some k ∧
      place? bodyTag (before ++ rest) = some k) ∨
    (place? bodyTag (before ++ (linesText assets.headLines ++ rest)) =
        (place? bodyTag rest).map (before.length + (linesText assets.headLines).length + ·) ∧
      place? bodyTag (before ++ rest) = (place? bodyTag rest).map (before.length + ·)) := by
  obtain ⟨⟨w, c, r, rfl, -, -⟩, hmem⟩ := (closesHere_iff isAsciiWordChar_headTag).1 hrest
  obtain ⟨t, ht⟩ := head?_linesText assets.exists_of_mem_headLines ('/' :: (w ++ c :: r))
  have hmem' : '>' ∈ '<' :: t := by
    rw [← ht]
    exact List.mem_append_right _ hmem
  have hsame : ∀ v, v ≠ [] → v <:+ before →
      closesHere bodyTag (v ++ (linesText assets.headLines ++ '<' :: '/' :: (w ++ c :: r))) =
        closesHere bodyTag (v ++ '<' :: '/' :: (w ++ c :: r)) := by
    intro v hv _
    rw [ht]
    exact closesHere_append_congr isAsciiWordChar_bodyTag hv foreign_lt foreign_lt hmem' hmem
  rcases place?_append_cases hsame with hin | ⟨hwith, hplain⟩
  · exact .inl hin
  · refine .inr ⟨?_, hplain⟩
    rw [hwith, place?_linesText assets.exists_of_mem_headLines, Option.map_map]
    refine Option.map_congr fun k _ => ?_
    simp [Nat.add_assoc]

/-- A page with its assets is the page with the lines put in at two of its own places. -/
theorem text_inject (assets : Assets) (page : Text) :
    (assets.inject page).text = weave (assets.inserted page) page := by
  have hinject : (assets.inject page).text =
      (insert bodyTag assets.bodyLines (insert headTag assets.headLines page).text).text := rfl
  cases hhead : place? headTag page with
  | none =>
    rw [hinject, text_insert_of_none hhead]
    cases hbody : place? bodyTag page with
    | none =>
      rw [text_insert_of_none hbody, weave_eq_self]
      simp [inserted, hhead, hbody]
    | some k =>
      obtain ⟨x, z, rfl, rfl, hz⟩ := exists_of_place? hbody
      rw [text_insert_of_some hbody, weave_one (ne_nil_of_closesHere hz)]
      · simp [inserted, hhead, hbody]
      · intro k hk
        simp [inserted, hhead, hbody, Ne.symm hk]
  | some h =>
    obtain ⟨before, rest, rfl, rfl, hrest⟩ := exists_of_place? hhead
    rw [hinject, text_insert_of_some hhead, List.append_assoc]
    have hne := ne_nil_of_closesHere hrest
    rcases assets.place?_body_cases before hrest with ⟨k, hk, hwith, hbody⟩ | ⟨hwith, hbody⟩
    · -- the closing body tag stands before the closing head tag
      obtain ⟨x, y, rfl, rfl⟩ : ∃ x y, before = x ++ y ∧ x.length = k :=
        ⟨before.take k, before.drop k, by simp, by simp; omega⟩
      rw [List.length_append] at hk
      have hy : y ≠ [] := List.length_pos_iff.1 (by omega)
      rw [List.append_assoc] at hwith hhead hbody ⊢
      rw [List.length_append] at hhead
      rw [text_insert_of_some hwith, List.append_assoc x y, weave_two hy hne]
      · simp [inserted, hhead, hbody, hy]
      · intro k hx hxy
        simp [inserted, hhead, hbody, hx.symm, hxy.symm]
    · cases hplace : place? bodyTag rest with
      | none =>
        rw [hplace] at hwith hbody
        rw [text_insert_of_none hwith, weave_one hne]
        · simp [inserted, hhead, hbody]
        · intro k hk
          simp [inserted, hhead, hbody, hk.symm]
      | some j =>
        obtain ⟨y, z, rfl, rfl, hz⟩ := exists_of_place? hplace
        have hzne := ne_nil_of_closesHere hz
        have hsplit : before ++ (linesText assets.headLines ++ (y ++ z)) =
            before ++ linesText assets.headLines ++ y ++ z := by
          simp only [List.append_assoc]
        have hat : place? bodyTag (before ++ linesText assets.headLines ++ y ++ z) =
            some (before ++ linesText assets.headLines ++ y).length := by
          rw [← hsplit, hwith, hplace]
          simp [Nat.add_assoc]
        rw [hplace, Option.map_some] at hbody
        rw [hsplit, text_insert_of_some hat]
        by_cases hy : y = []
        · subst hy
          rw [List.nil_append] at hhead hbody ⊢
          rw [weave_one hzne]
          · simp [inserted, hhead, hbody]
          · intro k hk
            simp [inserted, hhead, hbody, hk.symm]
        · rw [weave_two hy hzne]
          · simp [inserted, hhead, hbody, hy]
          · intro k hx hxy
            simp [inserted, hhead, hbody, hx.symm, hxy.symm]

end Assets

end MarkupTemplate
