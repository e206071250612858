import Mathlib.Data.List.TakeWhile
import MarkupTemplate.Proofs.CodeParts
import MarkupTemplate.Proofs.Entities
import MarkupTemplate.Tag
import MarkupTemplate.Token.Scan

/-!
# Reading written tags

A start tag is written with one blank before each attribute, its values escaped between double quotes;
an end tag is written with its name alone. Both are read back as they were meant: scanning takes
exactly the tag, whatever follows it, and reading it gives the name and the attributes. A value that
ends in a backslash is the exception, since its closing quote would not be seen.
-/

namespace MarkupTemplate

namespace Text

theorem getLast?_entity (c : Char) : (entity c).getLast? = some ';' ∨ entity c = [c] := by
  by_cases hc : c ∈ specials
  · have hall : ∀ c ∈ specials, (entity c).getLast? = some ';' := forall_of_all (by decide)
    exact .inl (hall c hc)
  · exact .inr (entity_of_plain hc)

theorem getLast?_escape {s : Text} (h : s.getLast? ≠ some '\\') :
    (escape s).getLast? ≠ some '\\' := by
  rw [escape_eq_encode]
  rcases List.eq_nil_or_concat s with rfl | ⟨s, c, rfl⟩
  · exact h
  rw [List.concat_eq_append, List.getLast?_concat] at h
  have hlast : encode (s.concat c) = encode s ++ entity c := by
    rw [List.concat_eq_append, encode_append]
    simp [encode]
  rw [hlast]
  rcases getLast?_entity c with he | he
  · rw [List.getLast?_append, he, Option.some_or]
    decide
  · rw [he, List.getLast?_concat]
    exact h

end Text

namespace Attributes

theorem set_of_not_mem {name : Text} {attributes : Attributes}
    (h : name ∉ attributes.map Prod.fst) (value : AttributeValue) :
    set name value attributes = attributes ++ [(name, value)] := by
  induction attributes with
  | nil => rfl
  | cons item rest ih =>
    obtain ⟨n, v⟩ := item
    rw [List.map_cons, List.mem_cons, not_or] at h
    rw [set, if_neg (Ne.symm h.1), ih h.2]
    rfl

theorem mem_set {item : Text × AttributeValue} {name : Text} {value : AttributeValue}
    {attributes : Attributes} (h : item ∈ set name value attributes) :
    item = (name, value) ∨ item ∈ attributes := by
  induction attributes with
  | nil => exact .inl (List.mem_singleton.1 h)
  | cons first rest ih =>
    obtain ⟨n, v⟩ := first
    rw [set] at h
    split at h
    · next hn =>
      rcases List.mem_cons.1 h with rfl | h
      · exact .inl (by rw [hn])
      · exact .inr (List.mem_cons_of_mem _ h)
    · rcases List.mem_cons.1 h with rfl | h
      · exact .inr List.mem_cons_self
      · exact (ih h).imp_right (List.mem_cons_of_mem _)

theorem nodup_set {attributes : Attributes} (h : (attributes.map Prod.fst).Nodup) (name : Text)
    (value : AttributeValue) : ((set name value attributes).map Prod.fst).Nodup := by
  rw [names_set]
  split
  · exact h
  · next hn =>
    rw [List.nodup_append]
    refine ⟨h, List.nodup_singleton name, fun a ha b hb => ?_⟩
    rw [List.mem_singleton.1 hb]
    rintro rfl
    exact hn ha

theorem foldl_set_spec (items : List (Text × AttributeValue)) (attributes : Attributes)
    (h : (attributes.map Prod.fst).Nodup) :
    ((items.foldl (fun acc (name, value) => set name value acc) attributes).map Prod.fst).Nodup ∧
      ∀ item ∈ items.foldl (fun acc (name, value) => set name value acc) attributes,
        item ∈ attributes ∨ item ∈ items := by
  induction items generalizing attributes with
  | nil => exact ⟨h, fun item hi => .inl hi⟩
  | cons first items ih =>
    obtain ⟨name, value⟩ := first
    obtain ⟨hnodup, hmem⟩ := ih _ (nodup_set h name value)
    refine ⟨hnodup, fun item hi => ?_⟩
    rcases hmem item hi with hs | hs
    · rcases mem_set hs with rfl | hs
      · exact .inr List.mem_cons_self
      · exact .inl hs
    · exact .inr (List.mem_cons_of_mem _ hs)

theorem nodup_ofList (items : List (Text × AttributeValue)) :
    ((ofList items).map Prod.fst).Nodup :=
  (foldl_set_spec items [] List.nodup_nil).1

theorem mem_of_mem_ofList {items : List (Text × AttributeValue)} {item : Text × AttributeValue}
    (h : item ∈ ofList items) : item ∈ items :=
  ((foldl_set_spec items [] List.nodup_nil).2 item h).resolve_left
    List.not_mem_nil

theorem foldl_set_of_nodup (items : List (Text × AttributeValue)) (attributes : Attributes)
    (h : ((attributes ++ items).map Prod.fst).Nodup) :
    items.foldl (fun acc (name, value) => set name value acc) attributes = attributes ++ items := by
  induction items generalizing attributes with
  | nil => simp
  | cons first items ih =>
    obtain ⟨name, value⟩ := first
    have hname : name ∉ attributes.map Prod.fst := by
      rw [List.map_append, List.nodup_append] at h
      intro hm
      exact h.2.2 name hm name List.mem_cons_self rfl
    have hassoc : attributes ++ (name, value) :: items = attributes ++ [(name, value)] ++ items := by
      simp
    rw [List.foldl_cons]
    dsimp only
    rw [set_of_not_mem hname, hassoc]
    rw [hassoc] at h
    exact ih _ h

theorem ofList_of_nodup {items : List (Text × AttributeValue)}
    (h : (items.map Prod.fst).Nodup) : ofList items = items :=
  foldl_set_of_nodup items [] h

end Attributes

namespace Tag

structure IsName (s : Text) : Prop where
  ne_nil : s ≠ []
  all : ∀ c ∈ s, isNameChar c = true

theorem not_isNameChar_of_isBlank {c : Char} (h : isBlank c = true) : isNameChar c = false := by
  have hall : ∀ n ∈ Text.blankCodes, isNameChar (Char.ofNat n) = false := by decide
  have := hall c.toNat (Text.toNat_mem_blankCodes h)
  rwa [Char.ofNat_toNat] at this

theorem not_isBlank_of_isNameChar {c : Char} (h : isNameChar c = true) : isBlank c = false := by
  cases hb : isBlank c with
  | false => rfl
  | true =>
    rw [not_isNameChar_of_isBlank hb] at h
    exact absurd h Bool.false_ne_true

namespace IsName

variable {name : Text}

theorem not_mem (h : IsName name) {c : Char} (hc : isNameChar c = false) : c ∉ name := by
  intro hm
  rw [h.all c hm] at hc
  exact Bool.false_ne_true hc.symm

theorem getLast?_append (h : IsName name) {u : Text} {c : Char} (hc : c ∈ (u ++ name).getLast?) :
    isNameChar c = true := by
  rw [List.getLast?_append_of_ne_nil u h.ne_nil] at hc
  exact h.all c (List.mem_of_getLast? hc)

theorem takeWhile_append (h : IsName name) {rest : Text}
    (hr : ∀ c ∈ rest.head?, isNameChar c = false) : (name ++ rest).takeWhile isNameChar = name :=
  Text.takeWhile_append_of_stop h.all hr

theorem dropWhile_append (h : IsName name) {rest : Text}
    (hr : ∀ c ∈ rest.head?, isNameChar c = false) : (name ++ rest).dropWhile isNameChar = rest :=
  Text.dropWhile_append_of_stop h.all hr

theorem trimStart_append (h : IsName name) (rest : Text) :
    Text.trimStart (name ++ rest) = name ++ rest := by
  obtain ⟨c, s, rfl⟩ := List.exists_cons_of_ne_nil h.ne_nil
  exact Text.trimStart_cons_of_not_blank (not_isBlank_of_isNameChar (h.all c List.mem_cons_self))

end IsName

theorem attributeItems_eq_nil {s : Text} (h : ∀ c ∈ s, isNameChar c = false) :
    attributeItems s = [] := by
  rw [attributeItems]
  have hd : s.dropWhile (!isNameChar ·) = [] := by
    rw [List.dropWhile_eq_nil_iff]
    intro c hc
    rw [h c hc]
    rfl
  split
  · rfl
  · next c s' hs =>
    rw [hd] at hs
    exact absurd hs (List.cons_ne_nil c s').symm

theorem attributeItems_append {junk name rest : Text} (hj : ∀ c ∈ junk, isNameChar c = false)
    (hn : IsName name) (hr : ∀ c ∈ rest.head?, isNameChar c = false) :
    attributeItems (junk ++ (name ++ rest)) =
      (name, (attributeRest rest).1) :: attributeItems (attributeRest rest).2 := by
  have hd : (junk ++ (name ++ rest)).dropWhile (!isNameChar ·) = name ++ rest := by
    rw [List.dropWhile_append_of_pos]
    · obtain ⟨c, s, rfl⟩ := List.exists_cons_of_ne_nil hn.ne_nil
      rw [List.cons_append, List.dropWhile_cons_of_neg]
      rw [hn.all c List.mem_cons_self]
      decide
    · intro c hc
      rw [hj c hc]
      rfl
  rw [attributeItems]
  split
  · next hs =>
    rw [hd] at hs
    exact absurd (List.append_eq_nil_iff.1 hs).1 hn.ne_nil
  · next c s' hs =>
    rw [hd] at hs
    rw [← hs, hn.takeWhile_append hr, hn.dropWhile_append hr]

theorem quotable_of_getLast? {v : Text} (hq : '"' ∉ v) (h : v.getLast? ≠ some '\\') :
    Code.Quotable '"' v := by
  induction hn : v.length using Nat.strong_induction_on generalizing v with
  | _ n ih =>
    subst hn
    cases v with
    | nil => exact .nil
    | cons c v =>
      rw [List.mem_cons, not_or] at hq
      by_cases hc : c = '\\'
      · subst hc
        cases v with
        | nil => exact absurd rfl h
        | cons d v =>
          refine .escaped (ih v.length (by simp) (fun hm => hq.2 (List.mem_cons_of_mem d hm)) ?_ rfl)
          intro hl
          apply h
          rw [List.getLast?_cons_cons, List.getLast?_cons, hl]
          rfl
      · refine .plain (Ne.symm hq.1) hc (ih v.length (by simp) hq.2 ?_ rfl)
        intro hl
        apply h
        rw [List.getLast?_cons, hl]
        rfl

end Tag

def AttributeValue.escaped : AttributeValue → AttributeValue
  | text value => .text (Text.escape value)
  | value => value

namespace Attributes

def escaped (attributes : Attributes) : Attributes :=
  attributes.map fun (name, value) => (name, value.escaped)

structure Writable (item : Text × AttributeValue) : Prop where
  name : Tag.IsName item.1
  given : item.2 ≠ .missing
  closed : ∀ value, item.2 = .text value → value.getLast? ≠ some '\\'

theorem itemMarkup_eq (item : Text × AttributeValue) :
    ∃ rest, itemMarkup item = ' ' :: (item.1 ++ rest) := by
  obtain ⟨name, value⟩ := item
  cases value with
  | flag => exact ⟨[], by simp [itemMarkup]⟩
  | text value => exact ⟨['=', '"'] ++ Text.escape value ++ ['"'], by simp [itemMarkup]⟩
  | missing => exact ⟨['=', '"', '"'], by simp [itemMarkup]⟩

theorem head?_flatMap_itemMarkup {items : Attributes} {c : Char}
    (h : c ∈ (items.flatMap itemMarkup).head?) : c = ' ' := by
  cases items with
  | nil => cases h
  | cons item items =>
    obtain ⟨rest, hr⟩ := itemMarkup_eq item
    rw [List.flatMap_cons, hr] at h
    cases h
    rfl

theorem attributeRest_flatMap {items : Attributes} (h : ∀ item ∈ items, Writable item) :
    Tag.attributeRest (items.flatMap itemMarkup) = (.flag, items.flatMap itemMarkup) := by
  cases items with
  | nil => rfl
  | cons item items =>
    have hn := (h item List.mem_cons_self).name
    obtain ⟨rest, hr⟩ := itemMarkup_eq item
    have htrim : Text.trimStart (' ' :: (item.1 ++ (rest ++ items.flatMap itemMarkup))) =
        item.1 ++ (rest ++ items.flatMap itemMarkup) :=
      hn.trimStart_append _
    obtain ⟨c, name, hc⟩ := List.exists_cons_of_ne_nil hn.ne_nil
    have hne : c ≠ '=' := by
      rintro rfl
      exact hn.not_mem (c := '=') (by decide) (by rw [hc]; exact List.mem_cons_self)
    rw [List.flatMap_cons, hr, List.cons_append, List.append_assoc, Tag.attributeRest,
      Tag.assigned?, htrim, hc]
    split
    · next value rest' hv =>
      split at hv
      · next t ht =>
        rw [List.cons_append, List.cons.injEq] at ht
        exact absurd ht.1 hne
      · cases hv
    · rfl

theorem attributeRest_text (value rest : Text) (h : value.getLast? ≠ some '\\') :
    Tag.attributeRest ('=' :: '"' :: (Text.escape value ++ '"' :: rest)) =
      (.text (Text.escape value), rest) := by
  have hq := Tag.quotable_of_getLast? (Text.not_mem_escape (by decide) value) (Text.getLast?_escape h)
  have hl := Code.literal?_append (by decide) hq rest
  have ha : Tag.assigned? ('=' :: '"' :: (Text.escape value ++ '"' :: rest)) =
      some (Text.escape value, rest) := hl
  rw [Tag.attributeRest, ha]

theorem attributeItems_flatMap {items : Attributes} (h : ∀ item ∈ items, Writable item) :
    Tag.attributeItems (items.flatMap itemMarkup) = escaped items := by
  induction items with
  | nil => exact Tag.attributeItems_eq_nil fun c hc => absurd hc List.not_mem_nil
  | cons item items ih =>
    have hrest : ∀ item ∈ items, Writable item := fun i hi => h i (List.mem_cons_of_mem item hi)
    obtain ⟨hn, hgiven, hclosed⟩ := h item List.mem_cons_self
    have hblank : ∀ c ∈ [' '], Tag.isNameChar c = false := Text.forall_of_all (by decide)
    obtain ⟨name, value⟩ := item
    cases value with
    | missing => exact absurd rfl hgiven
    | flag =>
      have hhead : ∀ c ∈ (items.flatMap itemMarkup).head?, Tag.isNameChar c = false := by
        intro c hc
        rw [head?_flatMap_itemMarkup hc]
        decide
      have hread := Tag.attributeItems_append hblank hn hhead
      rw [attributeRest_flatMap hrest, ih hrest] at hread
      exact hread
    | text value =>
      have hmarkup : ((name, AttributeValue.text value) :: items).flatMap itemMarkup = [' '] ++
          (name ++ '=' :: '"' :: (Text.escape value ++ '"' :: items.flatMap itemMarkup)) := by
        simp [itemMarkup]
      rw [hmarkup, Tag.attributeItems_append hblank hn (by intro c hc; cases hc; decide),
        attributeRest_text value _ (hclosed value rfl), ih hrest]
      rfl

end Attributes

theorem Attributes.getLast?_flatMap_itemMarkup {items : Attributes}
    (h : ∀ item ∈ items, Writable item) {c : Char} (hc : c ∈ (items.flatMap itemMarkup).getLast?) :
    c = '"' ∨ Tag.isNameChar c = true := by
  rcases List.eq_nil_or_concat items with rfl | ⟨items, item, rfl⟩
  · cases hc
  rw [List.concat_eq_append] at h hc
  have hw := h item (List.mem_append_right items List.mem_cons_self)
  rw [List.flatMap_append, List.flatMap_singleton] at hc
  obtain ⟨name, value⟩ := item
  cases value with
  | missing => exact absurd rfl hw.given
  | flag =>
    right
    rw [itemMarkup, List.append_cons] at hc
    exact hw.name.getLast?_append hc
  | text value =>
    left
    rw [itemMarkup, ← List.append_assoc, List.getLast?_concat] at hc
    cases hc
    rfl

namespace Tag

theorem splitFinalLineFeed_concat {s : Text} {c : Char} (h : c ≠ '\n') :
    splitFinalLineFeed (s ++ [c]) = (s ++ [c], []) := by
  rw [splitFinalLineFeed, List.reverse_concat]
  split
  · next heq => exact absurd (List.cons.inj heq).1 h
  · rfl

theorem dropTail_blanks {s blanks : Text} (hblanks : ∀ c ∈ blanks, isBlank c = true)
    (h : ∀ c ∈ s.getLast?, isBlank c = false ∧ c ≠ '/') :
    dropTail (s ++ blanks ++ ['>']) = (false, s) := by
  have htrim : Text.trimStart (blanks.reverse ++ s.reverse) = s.reverse := by
    refine Text.trimStart_append (fun c hc => hblanks c (List.mem_reverse.mp hc)) fun c hc => ?_
    rw [List.head?_reverse] at hc
    exact (h c hc).1
  have htail : tail? (s ++ blanks ++ ['>']) = some (false, s) := by
    have hreverse : (s ++ blanks ++ ['>']).reverse = '>' :: (blanks.reverse ++ s.reverse) := by simp
    unfold tail?
    simp only [hreverse, htrim]
    split
    · next r hr =>
      have hlast : '/' ∈ s.getLast? := by
        rw [← List.head?_reverse, hr]
        rfl
      exact absurd rfl (h '/' hlast).2
    · rw [List.reverse_reverse]
  rw [dropTail, splitFinalLineFeed_concat (by decide)]
  dsimp only
  rw [htail]
  simp

theorem dropTail_of_last {s : Text} (h : ∀ c ∈ s.getLast?, isBlank c = false ∧ c ≠ '/') :
    dropTail (s ++ ['>']) = (false, s) := by
  have hnone := dropTail_blanks (fun c hc => absurd hc List.not_mem_nil) h
  rwa [List.append_nil] at hnone

theorem dropTail_slash (s : Text) : dropTail (s ++ ['/', '>']) = (true, s) := by
  have htail : tail? (s ++ ['/'] ++ ['>']) = some (true, s) := by
    have hslash : ∀ r, Text.trimStart ('/' :: r) = '/' :: r :=
      fun r => Text.trimStart_cons_of_not_blank (by decide)
    simp [tail?, hslash]
  have hsplit : s ++ ['/', '>'] = s ++ ['/'] ++ ['>'] := by simp
  rw [hsplit, dropTail, splitFinalLineFeed_concat (by decide)]
  dsimp only
  rw [htail]
  simp

theorem last_of_isNameChar {c : Char} (h : c = '"' ∨ isNameChar c = true) :
    isBlank c = false ∧ c ≠ '/' := by
  rcases h with rfl | h
  · decide
  · refine ⟨not_isBlank_of_isNameChar h, ?_⟩
    rintro rfl
    exact absurd h (by decide)

theorem IsName.opening? {name : Text} (h : IsName name) (rest : Text) :
    opening? ('<' :: (name ++ rest)) = some (false, name ++ rest) := by
  rw [Tag.opening?, h.trimStart_append]
  split
  · next s hs =>
    obtain ⟨c, t, rfl⟩ := List.exists_cons_of_ne_nil h.ne_nil
    cases hs
    exact absurd (h.all '/' List.mem_cons_self) (by decide)
  · rfl

theorem read_of_opening? {raw name rest : Text} {closing : Bool}
    (h : opening? raw = some (closing, name ++ rest)) (hn : IsName name)
    (hr : ∀ c ∈ rest.head?, isNameChar c = false) :
    read raw = ⟨name, if closing then [] else .ofList (attributeItems (dropTail rest).2), closing,
      (dropTail raw).1⟩ := by
  unfold read
  rw [h]
  dsimp only [Option.any_some, Option.map_some, Option.getD_some]
  rw [hn.takeWhile_append hr, hn.dropWhile_append hr,
    if_neg fun he => hn.ne_nil (List.isEmpty_iff.1 he)]

theorem read_startTag {name : Text} {attributes : Attributes} {skip : List Text} (hn : IsName name)
    (hw : ∀ item ∈ attributes.kept name skip, Attributes.Writable item)
    (hnodup : ((attributes.kept name skip).map Prod.fst).Nodup) :
    read (startTag name attributes skip) =
      ⟨name, (attributes.kept name skip).escaped, false, false⟩ := by
  have hlast : ∀ c ∈ (attributes.markup name skip).getLast?, c = '"' ∨ isNameChar c = true :=
    fun c hc => Attributes.getLast?_flatMap_itemMarkup hw hc
  have hraw : startTag name attributes skip =
      '<' :: (name ++ (attributes.markup name skip ++ ['>'])) := by
    simp [startTag]
  have hhead : ∀ c ∈ (attributes.markup name skip ++ ['>']).head?, isNameChar c = false := by
    intro c hc
    rw [List.head?_append] at hc
    cases hm : (attributes.markup name skip).head? with
    | none =>
      rw [hm] at hc
      cases hc
      decide
    | some d =>
      rw [hm] at hc
      cases hc
      rw [Attributes.head?_flatMap_itemMarkup hm]
      decide
  have hself : (dropTail ('<' :: (name ++ (attributes.markup name skip ++ ['>'])))).1 = false := by
    have hassoc : '<' :: (name ++ (attributes.markup name skip ++ ['>'])) =
        '<' :: (name ++ attributes.markup name skip) ++ ['>'] := by simp
    rw [hassoc, dropTail_of_last]
    intro c hc
    refine last_of_isNameChar ?_
    rw [← List.cons_append, List.getLast?_append] at hc
    cases hm : (attributes.markup name skip).getLast? with
    | some d =>
      rw [hm] at hc
      cases hc
      exact hlast _ hm
    | none =>
      rw [hm] at hc
      exact .inr (hn.getLast?_append (u := ['<']) hc)
  have hescaped : ((attributes.kept name skip).escaped.map Prod.fst).Nodup := by
    rw [Attributes.escaped, List.map_map]
    exact hnodup
  rw [hraw, read_of_opening? (hn.opening? _) hn hhead, hself, if_neg Bool.false_ne_true,
    dropTail_of_last fun c hc => last_of_isNameChar (hlast c hc)]
  dsimp only
  rw [Attributes.markup, Attributes.attributeItems_flatMap hw, Attributes.ofList_of_nodup hescaped]

theorem read_endTag {name : Text} (hn : IsName name) :
    read (endTag name) = ⟨name, [], true, false⟩ := by
  have hopen : opening? (endTag name) = some (true, name ++ ['>']) := by
    change some (true, Text.trimStart (name ++ ['>'])) = some (true, name ++ ['>'])
    rw [hn.trimStart_append]
  have hself : (dropTail (endTag name)).1 = false := by
    have hassoc : endTag name = '<' :: '/' :: name ++ ['>'] := rfl
    rw [hassoc, dropTail_of_last]
    intro c hc
    exact last_of_isNameChar (.inr (hn.getLast?_append (u := ['<', '/']) hc))
  rw [read_of_opening? hopen hn (by intro c hc; cases hc; decide), hself, if_pos rfl]

theorem isName_takeWhile {s : Text} (h : s.takeWhile isNameChar ≠ []) :
    IsName (s.takeWhile isNameChar) :=
  ⟨h, fun _ hc => List.mem_takeWhile_imp hc⟩

theorem isName_read {raw : Text} (h : (read raw).name ≠ []) : IsName (read raw).name :=
  isName_takeWhile h

theorem attributeItems_spec (s : Text) :
    ∀ item ∈ attributeItems s, IsName item.1 ∧ item.2 ≠ .missing := by
  fun_induction attributeItems s with
  | case1 => exact fun item hi => absurd hi List.not_mem_nil
  | case2 s c s' hs value ih =>
    intro item hi
    rcases List.mem_cons.1 hi with rfl | hi
    · constructor
      · refine isName_takeWhile ?_
        have hc : isNameChar c = true := by
          have := List.head?_dropWhile_not (!isNameChar ·) s
          rw [hs] at this
          simpa using this
        rw [List.takeWhile_cons_of_pos hc]
        exact List.cons_ne_nil _ _
      · have hvalue : ∀ t, (attributeRest t).1 ≠ .missing := by
          intro t
          unfold attributeRest
          split <;> exact fun h => nomatch h
        exact hvalue _
    · exact ih item hi

theorem attributes_read (raw : Text) :
    ((read raw).attributes.map Prod.fst).Nodup ∧
      ∀ item ∈ (read raw).attributes, IsName item.1 ∧ item.2 ≠ .missing := by
  unfold read
  dsimp only
  split
  · exact ⟨List.nodup_nil, fun item hi => absurd hi List.not_mem_nil⟩
  · exact ⟨Attributes.nodup_ofList _,
      fun item hi => attributeItems_spec _ item (Attributes.mem_of_mem_ofList hi)⟩

end Tag

namespace Scan

namespace Span

def prepend (s : Text) (span : Span) : Span :=
  { span with taken := s ++ span.taken }

theorem push_eq_prepend (c : Char) (span : Span) : span.push c = span.prepend [c] := rfl

theorem prepend_prepend (s t : Text) (span : Span) :
    (span.prepend t).prepend s = span.prepend (s ++ t) := by
  simp [prepend]

end Span

theorem tagSpan_plain {u : Text} (h : ∀ c ∈ u, c ≠ '"' ∧ c ≠ '\'' ∧ c ≠ '>') (previous : Char)
    (s : Text) :
    tagSpan previous none (u ++ s) = (tagSpan (u.getLast?.getD previous) none s).prepend u := by
  induction u generalizing previous with
  | nil => rfl
  | cons c u ih =>
    obtain ⟨h₁, h₂, h₃⟩ := h c List.mem_cons_self
    have hu := ih (fun d hd => h d (List.mem_cons_of_mem c hd)) c
    rw [List.cons_append, tagSpan, if_neg (by rintro ⟨h | h, -⟩ <;> contradiction), if_neg h₃, hu,
      Span.push_eq_prepend, Span.prepend_prepend, List.getLast?_cons]
    rfl

theorem tagSpan_quoted {q : Char} {u : Text} (h : q ∉ u) (previous : Char) (s : Text) :
    tagSpan previous (some q) (u ++ s) =
      (tagSpan (u.getLast?.getD previous) (some q) s).prepend u := by
  induction u generalizing previous with
  | nil => rfl
  | cons c u ih =>
    rw [List.mem_cons, not_or] at h
    rw [List.cons_append, tagSpan, if_neg fun hc => h.1 hc.1.symm, ih h.2, Span.push_eq_prepend,
      Span.prepend_prepend, List.getLast?_cons]
    rfl

theorem plain_of_isName {name : Text} (h : Tag.IsName name) :
    ∀ c ∈ name, c ≠ '"' ∧ c ≠ '\'' ∧ c ≠ '>' := by
  intro c hc
  refine ⟨?_, ?_, ?_⟩ <;> rintro rfl <;> exact absurd (h.all _ hc) (by decide)

theorem tagSpan_itemMarkup {item : Text × AttributeValue} (h : Attributes.Writable item)
    (previous : Char) :
    ∃ last, ∀ s, tagSpan previous none (Attributes.itemMarkup item ++ s) =
      (tagSpan last none s).prepend (Attributes.itemMarkup item) := by
  obtain ⟨name, value⟩ := item
  have hname : ∀ c ∈ ' ' :: name, c ≠ '"' ∧ c ≠ '\'' ∧ c ≠ '>' := by
    intro c hc
    rcases List.mem_cons.1 hc with rfl | hc
    · decide
    · exact plain_of_isName h.name c hc
  cases value with
  | missing => exact absurd rfl h.given
  | flag => exact ⟨_, fun s => tagSpan_plain hname previous s⟩
  | text value =>
    refine ⟨'"', fun s => ?_⟩
    have hopen : ∀ c ∈ ' ' :: name ++ ['='], c ≠ '"' ∧ c ≠ '\'' ∧ c ≠ '>' := by
      intro c hc
      rcases List.mem_append.1 hc with hc | hc
      · exact hname c hc
      · rw [List.mem_singleton.1 hc]
        decide
    have hassoc : Attributes.itemMarkup (name, .text value) ++ s =
        (' ' :: name ++ ['=']) ++ '"' :: (Text.escape value ++ '"' :: s) := by
      simp [Attributes.itemMarkup]
    have hlast : (Text.escape value).getLast?.getD '"' ≠ '\\' := by
      have := Text.getLast?_escape (h.closed value rfl)
      cases hl : (Text.escape value).getLast? with
      | none => decide
      | some c =>
        rw [hl] at this
        exact fun hc => this (congrArg some hc)
    have hquote : ∀ t, tagSpan '=' none ('"' :: t) = (tagSpan '"' (some '"') t).prepend ['"'] := by
      intro t
      rw [tagSpan, if_pos (by decide), Span.push_eq_prepend]
    have hclose : tagSpan ((Text.escape value).getLast?.getD '"') (some '"') ('"' :: s) =
        (tagSpan '"' none s).prepend ['"'] := by
      rw [tagSpan, if_pos ⟨rfl, hlast⟩, Span.push_eq_prepend]
    rw [hassoc, tagSpan_plain hopen, List.getLast?_concat, Option.getD_some, hquote,
      tagSpan_quoted (Text.not_mem_escape (by decide) value), hclose]
    simp only [Span.prepend_prepend]
    congr 1
    simp [Attributes.itemMarkup]

theorem tagSpan_flatMap_itemMarkup {items : Attributes}
    (h : ∀ item ∈ items, Attributes.Writable item) (previous : Char) :
    ∃ last, ∀ s, tagSpan previous none (items.flatMap Attributes.itemMarkup ++ s) =
      (tagSpan last none s).prepend (items.flatMap Attributes.itemMarkup) := by
  induction items generalizing previous with
  | nil => exact ⟨previous, fun s => rfl⟩
  | cons item items ih =>
    obtain ⟨next, hitem⟩ := tagSpan_itemMarkup (h item List.mem_cons_self) previous
    obtain ⟨last, hitems⟩ := ih (fun i hi => h i (List.mem_cons_of_mem item hi)) next
    refine ⟨last, fun s => ?_⟩
    rw [List.flatMap_cons, List.append_assoc, hitem, hitems, Span.prepend_prepend]

theorem tagSpan_bracket (previous : Char) (s : Text) :
    tagSpan previous none ('>' :: s) = ⟨['>'], s, true⟩ := by
  rw [tagSpan, if_neg (by rintro ⟨h | h, -⟩ <;> exact absurd h (by decide)), if_pos rfl]

theorem tagStep_startTag {name : Text} {attributes : Attributes} {skip : List Text}
    (hn : Tag.IsName name) (hw : ∀ item ∈ attributes.kept name skip, Attributes.Writable item)
    (rest : Text) :
    tagStep ((startTag name attributes skip).tail ++ rest) =
      ⟨⟨.tag (startTag name attributes skip) (.read (startTag name attributes skip)),
        startTag name attributes skip, none⟩, rest,
        modeAfter (.read (startTag name attributes skip))⟩ := by
  obtain ⟨last, hitems⟩ := tagSpan_flatMap_itemMarkup hw (name.getLast?.getD '<')
  have hspan : tagSpan '<' none ((startTag name attributes skip).tail ++ rest) =
      ⟨(startTag name attributes skip).tail, rest, true⟩ := by
    have hassoc : (startTag name attributes skip).tail ++ rest =
        name ++ ((attributes.kept name skip).flatMap Attributes.itemMarkup ++ '>' :: rest) := by
      simp [startTag, Attributes.markup]
    rw [hassoc, tagSpan_plain (plain_of_isName hn), hitems, tagSpan_bracket, Span.prepend_prepend]
    simp [startTag, Attributes.markup, Span.prepend]
  have hraw : '<' :: (startTag name attributes skip).tail = startTag name attributes skip := rfl
  rw [tagStep, hspan]
  dsimp only
  rw [hraw]
  rfl

theorem tagStep_endTag {name : Text} (hn : Tag.IsName name) (rest : Text) :
    tagStep ((endTag name).tail ++ rest) =
      ⟨⟨.tag (endTag name) (.read (endTag name)), endTag name, none⟩, rest, .content⟩ := by
  have hplain : ∀ c ∈ '/' :: name, c ≠ '"' ∧ c ≠ '\'' ∧ c ≠ '>' := by
    intro c hc
    rcases List.mem_cons.1 hc with rfl | hc
    · decide
    · exact plain_of_isName hn c hc
  have hspan : tagSpan '<' none ((endTag name).tail ++ rest) =
      ⟨(endTag name).tail, rest, true⟩ := by
    have hassoc : (endTag name).tail ++ rest = ('/' :: name) ++ '>' :: rest := by
      simp [endTag]
    rw [hassoc, tagSpan_plain hplain, tagSpan_bracket]
    rfl
  have hraw : '<' :: (endTag name).tail = endTag name := rfl
  rw [tagStep, hspan]
  dsimp only
  rw [hraw, Tag.read_endTag hn]
  rfl

end Scan

end MarkupTemplate
