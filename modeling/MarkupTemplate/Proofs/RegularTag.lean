import MarkupTemplate.Proofs.TagMarkup

/-!
# Regular tags

A regular opening tag is a name, attributes with at least one blank before each, and an end. An attribute
stands alone or with a value between quotes or bare, and blanks may surround the equals sign. Such a tag is
read as it was meant, whatever its values look like: they may hold brackets, slashes, equals signs, the
other quote, or what would be an attribute elsewhere. Of several values of one name the last counts, at the
place of the first. A bare value that ends in a slash cannot stand right before the bracket, since the
slash would belong to the end of the tag.
-/

namespace MarkupTemplate

namespace Attributes

/-- One entry a name, in the order in which the names first appear, each with the last value given. -/
structure Resolves (items : List (Text × AttributeValue)) (attributes : Attributes) : Prop where
  names : attributes.map Prod.fst = (items.map Prod.fst).eraseDups
  values : ∀ entry ∈ attributes, (items.filter fun item => item.1 == entry.1).getLast? = some entry

theorem mem_set_of_nodup {entry : Text × AttributeValue} {name : Text} {value : AttributeValue}
    {attributes : Attributes} (hnodup : (attributes.map Prod.fst).Nodup)
    (h : entry ∈ set name value attributes) :
    entry = (name, value) ∨ (entry ∈ attributes ∧ entry.1 ≠ name) := by
  induction attributes with
  | nil => exact .inl (List.mem_singleton.mp h)
  | cons first rest ih =>
    obtain ⟨n, v⟩ := first
    obtain ⟨hfirst, hrest⟩ := List.nodup_cons.mp hnodup
    rw [set] at h
    split_ifs at h with hn
    · rcases List.mem_cons.mp h with rfl | hmem
      · exact .inl (by rw [hn])
      · refine .inr ⟨List.mem_cons_of_mem _ hmem, fun hname => hfirst ?_⟩
        exact List.mem_map.mpr ⟨entry, hmem, hname.trans hn.symm⟩
    · rcases List.mem_cons.mp h with rfl | hmem
      · exact .inr ⟨List.mem_cons_self, hn⟩
      · exact (ih hrest hmem).imp_right fun hold => ⟨List.mem_cons_of_mem _ hold.1, hold.2⟩

theorem resolves_ofList (items : List (Text × AttributeValue)) : Resolves items (ofList items) := by
  induction items using List.reverseRecOn with
  | nil => exact ⟨rfl, by simp [ofList]⟩
  | append_singleton items item ih =>
    obtain ⟨name, value⟩ := item
    have hset : ofList (items ++ [(name, value)]) = set name value (ofList items) :=
      List.foldl_concat ..
    have hmem : name ∈ (ofList items).map Prod.fst ↔ name ∈ items.map Prod.fst := by
      rw [ih.names, List.mem_eraseDups]
    refine ⟨?_, fun entry hentry => ?_⟩
    · rw [hset, names_set, List.map_append, List.eraseDups_append, ih.names.symm]
      by_cases hname : name ∈ items.map Prod.fst
      · have hknown : [name].removeAll (items.map Prod.fst) = [] := by
          simpa [List.removeAll] using hname
        rw [if_pos (hmem.mpr hname)]
        change _ = _ ++ ([name].removeAll (items.map Prod.fst)).eraseDups
        rw [hknown, List.eraseDups_nil, List.append_nil]
      · have hnew : [name].removeAll (items.map Prod.fst) = [name] := by
          simpa [List.removeAll] using hname
        rw [if_neg fun h => hname (hmem.mp h)]
        change _ = _ ++ ([name].removeAll (items.map Prod.fst)).eraseDups
        rw [hnew]
        rfl
    · rw [hset] at hentry
      rcases mem_set_of_nodup (nodup_ofList items) hentry with rfl | ⟨hold, hne⟩
      · simp
      · have hother : (name == entry.1) = false := by simpa using Ne.symm hne
        simpa [hother] using ih.values entry hold

end Attributes

namespace Tag

theorem not_isBareChar_of_isBlank {c : Char} (h : isBlank c = true) : isBareChar c = false := by
  simp [isBareChar, h]

theorem not_isBlank_of_isBareChar {c : Char} (h : isBareChar c = true) : isBlank c = false := by
  cases hb : isBlank c with
  | false => rfl
  | true => exact (Bool.false_ne_true ((not_isBareChar_of_isBlank hb).symm.trans h)).elim

end Tag

inductive WrittenValue
  | double (value : Text) (closed : Code.Quotable '"' value)
  | single (value : Text) (closed : Code.Quotable '\'' value)
  | bare (value : Text) (ne_nil : value ≠ []) (plain : ∀ c ∈ value, Tag.isBareChar c = true)

namespace WrittenValue

def content : WrittenValue → Text
  | double value _ => value
  | single value _ => value
  | bare value _ _ => value

def text : WrittenValue → Text
  | double value _ => '"' :: value ++ ['"']
  | single value _ => '\'' :: value ++ ['\'']
  | bare value _ _ => value

theorem exists_head (value : WrittenValue) :
    ∃ c rest, value.text = c :: rest ∧ isBlank c = false := by
  cases value with
  | double value _ => exact ⟨'"', _, rfl, by decide⟩
  | single value _ => exact ⟨'\'', _, rfl, by decide⟩
  | bare value ne_nil plain =>
    obtain ⟨c, rest, rfl⟩ := List.exists_cons_of_ne_nil ne_nil
    exact ⟨c, rest, rfl, Tag.not_isBlank_of_isBareChar (plain c List.mem_cons_self)⟩

theorem value?_append (value : WrittenValue) {rest : Text}
    (hrest : ∀ c ∈ rest.head?, Tag.isBareChar c = false) :
    Tag.value? (value.text ++ rest) = some (value.content, rest) := by
  cases value with
  | double value closed =>
    have hliteral := Code.literal?_append (by decide) closed rest
    simpa [text, content, Tag.value?] using hliteral
  | single value closed =>
    have hliteral := Code.literal?_append (by decide) closed rest
    simpa [text, content, Tag.value?] using hliteral
  | bare value ne_nil plain =>
    have htake : (value ++ rest).takeWhile Tag.isBareChar = value :=
      Text.takeWhile_append_of_stop plain hrest
    have hdrop : (value ++ rest).dropWhile Tag.isBareChar = rest :=
      Text.dropWhile_append_of_stop plain hrest
    obtain ⟨c, tail, rfl⟩ := List.exists_cons_of_ne_nil ne_nil
    have hbare : Tag.isBareChar c = true := plain c List.mem_cons_self
    have hdouble : c ≠ '"' := by
      rintro rfl
      exact absurd hbare (by decide)
    have hsingle : c ≠ '\'' := by
      rintro rfl
      exact absurd hbare (by decide)
    change Tag.value? (c :: tail ++ rest) = some (c :: tail, rest)
    unfold Tag.value?
    split
    · next heq => exact absurd (List.cons.inj heq).1 hdouble
    · next heq => exact absurd (List.cons.inj heq).1 hsingle
    · rw [htake, hdrop]

end WrittenValue

structure Assignment where
  before : Text
  after : Text
  value : WrittenValue
  blank_before : ∀ c ∈ before, isBlank c = true
  blank_after : ∀ c ∈ after, isBlank c = true

namespace Assignment

def text (a : Assignment) : Text :=
  a.before ++ '=' :: (a.after ++ a.value.text)

theorem not_isNameChar_head? (a : Assignment) (rest : Text) :
    ∀ c ∈ (a.text ++ rest).head?, Tag.isNameChar c = false := by
  intro c hc
  cases hbefore : a.before with
  | nil =>
    simp only [text, hbefore] at hc
    cases hc
    decide
  | cons d before =>
    simp only [text, hbefore] at hc
    cases hc
    exact Tag.not_isNameChar_of_isBlank (a.blank_before c (by simp [hbefore]))

theorem attributeRest_append (a : Assignment) {rest : Text}
    (hrest : ∀ c ∈ rest.head?, isBlank c = true) :
    Tag.attributeRest (a.text ++ rest) = (.text a.value.content, rest) := by
  obtain ⟨c, tail, htext, hc⟩ := a.value.exists_head
  have hequals : Text.trimStart (a.text ++ rest) = '=' :: (a.after ++ (a.value.text ++ rest)) := by
    have hsplit : a.text ++ rest = a.before ++ '=' :: (a.after ++ (a.value.text ++ rest)) := by
      simp [text]
    rw [hsplit]
    apply Text.trimStart_append a.blank_before
    intro d hd
    cases hd
    decide
  have hvalue : Text.trimStart (a.after ++ (a.value.text ++ rest)) = a.value.text ++ rest := by
    apply Text.trimStart_append a.blank_after
    intro d hd
    rw [htext] at hd
    cases hd
    exact hc
  have hread : Tag.value? (a.value.text ++ rest) = some (a.value.content, rest) :=
    a.value.value?_append fun d hd => Tag.not_isBareChar_of_isBlank (hrest d hd)
  have hassigned : Tag.assigned? (a.text ++ rest) = some (a.value.content, rest) := by
    simp [Tag.assigned?, hequals, hvalue, hread]
  rw [Tag.attributeRest, hassigned]

end Assignment

structure WrittenAttribute where
  gap : Text
  name : Text
  assignment : Option Assignment
  gap_ne_nil : gap ≠ []
  blank_gap : ∀ c ∈ gap, isBlank c = true
  isName : Tag.IsName name

namespace WrittenAttribute

def text (item : WrittenAttribute) : Text :=
  item.gap ++ (item.name ++ (item.assignment.map Assignment.text).getD [])

def meaning (item : WrittenAttribute) : Text × AttributeValue :=
  (item.name, match item.assignment with
    | some a => .text a.value.content
    | none => .flag)

def endsInSlash (item : WrittenAttribute) : Bool :=
  match item.assignment with
  | some ⟨_, _, .bare value _ _, _, _⟩ => value.getLast? == some '/'
  | _ => false

theorem isBlank_head? {items : List WrittenAttribute} {gap : Text}
    (hgap : ∀ c ∈ gap, isBlank c = true) {c : Char}
    (hc : c ∈ (items.flatMap text ++ gap).head?) : isBlank c = true := by
  cases items with
  | nil => exact hgap c (List.mem_of_mem_head? hc)
  | cons item items =>
    obtain ⟨d, rest, hd⟩ := List.exists_cons_of_ne_nil item.gap_ne_nil
    have hhead : d = c := by
      simpa [text, hd] using hc
    exact item.blank_gap c (by simp [hd, hhead])

theorem attributeRest_flatMap (items : List WrittenAttribute) {gap : Text}
    (hgap : ∀ c ∈ gap, isBlank c = true) :
    Tag.attributeRest (items.flatMap text ++ gap) = (.flag, items.flatMap text ++ gap) := by
  have hhead : ∀ c ∈ (Text.trimStart (items.flatMap text ++ gap)).head?, c ≠ '=' := by
    cases items with
    | nil =>
      have hnone : Text.trimStart gap = [] := List.dropWhile_eq_nil_iff.mpr hgap
      simp [hnone]
    | cons item items =>
      have hstart : ∀ rest, Text.trimStart (item.gap ++ (item.name ++ rest)) = item.name ++ rest := by
        intro rest
        rw [Text.trimStart, List.dropWhile_append_of_pos item.blank_gap]
        exact item.isName.trimStart_append rest
      obtain ⟨d, tail, hname⟩ := List.exists_cons_of_ne_nil item.isName.ne_nil
      have hd : Tag.isNameChar d = true := item.isName.all d (by simp [hname])
      intro c hc
      simp only [List.flatMap_cons, text, List.append_assoc, hstart] at hc
      simp only [hname, List.cons_append, List.head?_cons, Option.mem_some_iff] at hc
      rw [← hc]
      rintro rfl
      exact absurd hd (by decide)
  have hnone : Tag.assigned? (items.flatMap text ++ gap) = none := by
    unfold Tag.assigned?
    split
    · next rest heq => exact absurd rfl (hhead '=' (by simp [heq]))
    · rfl
  rw [Tag.attributeRest, hnone]

theorem attributeItems_flatMap (items : List WrittenAttribute) {gap : Text}
    (hgap : ∀ c ∈ gap, isBlank c = true) :
    Tag.attributeItems (items.flatMap text ++ gap) = items.map meaning := by
  induction items with
  | nil => exact Tag.attributeItems_eq_nil fun c hc => Tag.not_isNameChar_of_isBlank (hgap c hc)
  | cons item items ih =>
    have hblank : ∀ c ∈ (items.flatMap text ++ gap).head?, isBlank c = true :=
      fun c hc => isBlank_head? hgap hc
    have hjunk : ∀ c ∈ item.gap, Tag.isNameChar c = false :=
      fun c hc => Tag.not_isNameChar_of_isBlank (item.blank_gap c hc)
    have hsplit : (item :: items).flatMap text ++ gap = item.gap ++ (item.name ++
        ((item.assignment.map Assignment.text).getD [] ++ (items.flatMap text ++ gap))) := by
      simp [text]
    rw [hsplit, List.map_cons, ← ih]
    cases ha : item.assignment with
    | none =>
      have hread := Tag.attributeItems_append hjunk item.isName
        fun c hc => Tag.not_isNameChar_of_isBlank (hblank c hc)
      rw [attributeRest_flatMap items hgap] at hread
      simpa [meaning, ha] using hread
    | some a =>
      have hread := Tag.attributeItems_append hjunk item.isName
        (a.not_isNameChar_head? (items.flatMap text ++ gap))
      rw [a.attributeRest_append hblank] at hread
      simpa [meaning, ha] using hread

theorem getLast?_text (item : WrittenAttribute) {c : Char} (hc : c ∈ item.text.getLast?) :
    isBlank c = false ∧ (c = '/' → item.endsInSlash = true) := by
  cases ha : item.assignment with
  | none =>
    have htext : item.text = item.gap ++ item.name := by
      simp [text, ha]
    rw [htext] at hc
    have hend := Tag.last_of_isNameChar (.inr (item.isName.getLast?_append hc))
    exact ⟨hend.1, fun hslash => absurd hslash hend.2⟩
  | some a =>
    obtain ⟨before, after, value, hbefore, hafter⟩ := a
    obtain ⟨d, tail, hvalue, -⟩ := value.exists_head
    have htext : item.text = item.gap ++ item.name ++ before ++ '=' :: after ++ value.text := by
      simp [text, ha, Assignment.text]
    rw [htext, List.getLast?_append_of_ne_nil _ (by simp [hvalue])] at hc
    cases value with
    | double value _ =>
      rw [WrittenValue.text, List.getLast?_concat] at hc
      cases hc
      exact ⟨by decide, fun hslash => absurd hslash (by decide)⟩
    | single value _ =>
      rw [WrittenValue.text, List.getLast?_concat] at hc
      cases hc
      exact ⟨by decide, fun hslash => absurd hslash (by decide)⟩
    | bare value ne_nil plain =>
      have hlast : value.getLast? = some c := hc
      refine ⟨Tag.not_isBlank_of_isBareChar (plain c (List.mem_of_getLast? hlast)), fun hslash => ?_⟩
      simp [endsInSlash, ha, hlast, hslash]

end WrittenAttribute

/-- An opening tag: its name, its attributes, and its end with or without a slash. -/
structure WrittenTag where
  name : Text
  items : List WrittenAttribute
  gap : Text
  slash : Bool
  isName : Tag.IsName name
  blank_gap : ∀ c ∈ gap, isBlank c = true
  slash_apart : slash = false → ∀ item ∈ items.getLast?, item.endsInSlash = false

namespace WrittenTag

def tail (tag : WrittenTag) : Text :=
  tag.items.flatMap WrittenAttribute.text ++ tag.gap ++ (if tag.slash then ['/', '>'] else ['>'])

def text (tag : WrittenTag) : Text :=
  '<' :: (tag.name ++ tag.tail)

theorem getLast?_items (tag : WrittenTag) (hslash : tag.slash = false) {u : Text} {c : Char}
    (hu : ∀ c ∈ u.getLast?, isBlank c = false ∧ c ≠ '/')
    (hc : c ∈ (u ++ tag.items.flatMap WrittenAttribute.text).getLast?) :
    isBlank c = false ∧ c ≠ '/' := by
  rcases List.eq_nil_or_concat tag.items with hitems | ⟨items, item, hitems⟩
  · simp only [hitems, List.flatMap_nil, List.append_nil] at hc
    exact hu c hc
  · have hlast : item ∈ tag.items.getLast? := by
      simp [hitems]
    have htext : item.text ≠ [] := by
      simp [WrittenAttribute.text, item.gap_ne_nil]
    have hsplit : u ++ tag.items.flatMap WrittenAttribute.text =
        u ++ items.flatMap WrittenAttribute.text ++ item.text := by
      simp [hitems]
    rw [hsplit, List.getLast?_append_of_ne_nil _ htext] at hc
    obtain ⟨hblank, hends⟩ := item.getLast?_text hc
    refine ⟨hblank, fun heq => ?_⟩
    have hapart := tag.slash_apart hslash item hlast
    rw [hends heq] at hapart
    cases hapart

theorem not_isNameChar_head? (tag : WrittenTag) :
    ∀ c ∈ tag.tail.head?, Tag.isNameChar c = false := by
  intro c hc
  rw [tail, List.head?_append] at hc
  cases hbefore : (tag.items.flatMap WrittenAttribute.text ++ tag.gap).head? with
  | some d =>
    rw [hbefore] at hc
    cases hc
    exact Tag.not_isNameChar_of_isBlank (WrittenAttribute.isBlank_head? tag.blank_gap hbefore)
  | none =>
    rw [hbefore] at hc
    cases hslash : tag.slash with
    | true =>
      simp only [hslash, if_true] at hc
      cases hc
      decide
    | false =>
      simp only [hslash] at hc
      cases hc
      decide

theorem dropTail_append (tag : WrittenTag) {u : Text}
    (hu : ∀ c ∈ u.getLast?, isBlank c = false ∧ c ≠ '/') :
    ∃ gap, (∀ c ∈ gap, isBlank c = true) ∧ Tag.dropTail (u ++ tag.tail) =
      (tag.slash, u ++ (tag.items.flatMap WrittenAttribute.text ++ gap)) := by
  cases hslash : tag.slash with
  | true =>
    refine ⟨tag.gap, tag.blank_gap, ?_⟩
    have hend := Tag.dropTail_slash (u ++ (tag.items.flatMap WrittenAttribute.text ++ tag.gap))
    simpa [tail, hslash] using hend
  | false =>
    refine ⟨[], by simp, ?_⟩
    have hend := Tag.dropTail_blanks tag.blank_gap fun c hc => tag.getLast?_items hslash hu hc
    simpa [tail, hslash] using hend

end WrittenTag

/-- A regular tag is read as it was meant. -/
theorem Tag.read_writtenTag (tag : WrittenTag) :
    (read tag.text).name = tag.name ∧ (read tag.text).closing = false ∧
      (read tag.text).selfClosing = tag.slash ∧
      Attributes.Resolves (tag.items.map WrittenAttribute.meaning) (read tag.text).attributes := by
  have hname : ∀ c ∈ ('<' :: tag.name).getLast?, isBlank c = false ∧ c ≠ '/' := by
    intro c hc
    exact last_of_isNameChar (.inr (tag.isName.getLast?_append (u := ['<']) hc))
  obtain ⟨_, _, hraw⟩ := tag.dropTail_append hname
  obtain ⟨gap, hgap, hrest⟩ := tag.dropTail_append (u := []) (by simp)
  have hread := read_of_opening? (tag.isName.opening? tag.tail) tag.isName tag.not_isNameChar_head?
  have hitems := WrittenAttribute.attributeItems_flatMap tag.items hgap
  have hslash : (dropTail tag.text).1 = tag.slash := congrArg Prod.fst hraw
  rw [List.nil_append] at hrest
  rw [WrittenTag.text, hread, hrest, List.nil_append, hitems]
  exact ⟨rfl, rfl, hslash, Attributes.resolves_ofList _⟩

def WrittenAttribute.spaced {name : Text} (h : Tag.IsName name) (assignment : Option Assignment) :
    WrittenAttribute :=
  ⟨[' '], name, assignment, by simp, List.all_eq_true.mp rfl, h⟩

def Assignment.tight (value : WrittenValue) : Assignment :=
  ⟨[], [], value, by simp, by simp⟩

def busyTag : WrittenTag where
  name := ['a']
  items :=
    have hx : Tag.IsName ['x'] := ⟨by simp, List.all_eq_true.mp rfl⟩
    have hy : Tag.IsName ['y'] := ⟨by simp, List.all_eq_true.mp rfl⟩
    [.spaced hx (some (.tight (.double ['\\', '"', '>'] (.escaped (.plain (by decide) (by decide) .nil))))),
      .spaced hy (some (.tight (.single ['"'] (.plain (by decide) (by decide) .nil)))),
      .spaced hy none,
      .spaced hx (some (.tight (.bare ['/'] (by simp) (List.all_eq_true.mp rfl))))]
  gap := ['\n']
  slash := true
  isName := ⟨by simp, List.all_eq_true.mp rfl⟩
  blank_gap := List.all_eq_true.mp rfl
  slash_apart := nofun

theorem Tag.read_writtenTag_busyTag :
    busyTag.text = "<a x=\"\\\">\" y='\"' y x=/\n/>".toList ∧
      (read busyTag.text).selfClosing = true ∧
      Attributes.Resolves
        [(['x'], .text ['\\', '"', '>']), (['y'], .text ['"']), (['y'], .flag), (['x'], .text ['/'])]
        (read busyTag.text).attributes := by
  have hread := Tag.read_writtenTag busyTag
  exact ⟨rfl, hread.2.2.1, hread.2.2.2⟩

end MarkupTemplate
