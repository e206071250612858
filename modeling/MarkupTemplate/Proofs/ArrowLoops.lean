import MarkupTemplate.Loop
import MarkupTemplate.Proofs.Text

/-!
# Arrow loops

An arrow loop has a collection before its first arrow and names behind it: the value, or a key and a value
with a comma between them. Blanks around the parts do not count. A loop is rejected if its collection is
blank, or if all that stands behind the arrow is. A comma is enough for the second part not to be blank, so
the key or the value beside it may be missing, and the loop is accepted all the same: these are the accepted
loops that are not complete.
-/

namespace MarkupTemplate.Loop

/-- An expression in the arrow form, with what stands before and behind its first arrow. -/
structure ArrowForm (expr left right : Text) : Prop where
  split : expr = left ++ arrow ++ right
  first : ¬ arrow <:+: left ++ ['=']
  notNative : hasAs (Text.trim expr) = false

inductive ArrowReading (expr left : Text) : Text → Except TemplateError Loop → Prop
  | incomplete {right : Text} (h : left.Blank ∨ right.Blank) :
      ArrowReading expr left right (.error (.incompleteLoop (Text.trim expr)))
  | values {right : Text} (hleft : ¬ left.Blank) (hright : ¬ right.Blank) (hcomma : ',' ∉ right) :
      ArrowReading expr left right (.ok (.values (Text.trim left) (Text.trim right)))
  | pairs {key value : Text} (hleft : ¬ left.Blank) (hkey : ',' ∉ key) :
      ArrowReading expr left (key ++ ',' :: value)
        (.ok (.pairs (Text.trim left) (Text.trim key) (Text.trim value)))

inductive Complete : Loop → Prop
  | values {collection value : Text} (hcollection : ¬ collection.Blank) (hvalue : ¬ value.Blank) :
      Complete (.values collection value)
  | pairs {collection key value : Text} (hcollection : ¬ collection.Blank) (hkey : ¬ key.Blank)
      (hvalue : ¬ value.Blank) : Complete (.pairs collection key value)

/-- The key before the first comma or the value behind it is blank. -/
def MissesName (right : Text) : Prop :=
  ∃ key value : Text, right = key ++ ',' :: value ∧ ',' ∉ key ∧ (key.Blank ∨ value.Blank)

variable {expr left right : Text}

theorem cut?_comma {key : Text} (hkey : ',' ∉ key) (value : Text) :
    Text.cut? [','] (key ++ ',' :: value) = some (key, value) := by
  have hfirst : ¬ [','] <:+: key ++ [','].dropLast := by
    intro h
    exact hkey (by simpa using h.subset List.mem_cons_self)
  have hcut := Text.cut?_append (List.cons_ne_nil ',' []) hfirst value
  rwa [List.append_assoc] at hcut

theorem trim_comma (key value : Text) :
    Text.trim (key ++ ',' :: value) = Text.trimStart key ++ ',' :: Text.trimEnd value := by
  have hmark : ∀ c ∈ [','], isBlank c = false := Text.forall_of_all (by decide)
  have htrim := Text.trim_append_mark (List.cons_ne_nil ',' []) hmark key value
  rwa [List.append_assoc, List.append_assoc] at htrim

theorem not_blank_comma (key value : Text) : ¬ Text.Blank (key ++ ',' :: value) := by
  intro h
  have hcomma := h ',' (by simp)
  exact absurd hcomma (by decide)

theorem ofArrow_trimmed (hleft : ¬ left.Blank) (hright : ¬ right.Blank) (whole : Text) :
    ofArrow whole (Text.trimStart left) (Text.trimEnd right) =
      match Text.cut? [','] (Text.trim right) with
      | some (key, value) => .ok (.pairs (Text.trim left) (Text.trim key) (Text.trim value))
      | none => .ok (.values (Text.trim left) (Text.trim right)) := by
  have hcollection : (Text.trim left).isEmpty = false := by
    simpa [List.isEmpty_eq_false_iff] using mt Text.trim_eq_nil_iff.1 hleft
  have hnames : (Text.trim right).isEmpty = false := by
    simpa [List.isEmpty_eq_false_iff] using mt Text.trim_eq_nil_iff.1 hright
  simp only [ofArrow, Text.trim_trimStart, Text.trim_trimEnd, hcollection, hnames]
  rfl

namespace ArrowForm

theorem read_eq (h : ArrowForm expr left right) :
    read expr = ofArrow (Text.trim expr) (Text.trimStart left) (Text.trimEnd right) := by
  have htrim : Text.trim expr = Text.trimStart left ++ arrow ++ Text.trimEnd right := by
    rw [h.split]
    exact Text.trim_append_mark (by decide) (Text.forall_of_all (by decide)) left right
  have hne : (Text.trim expr).isEmpty = false := by
    rw [htrim]
    simp [arrow]
  have hcut : Text.cut? arrow (Text.trim expr) =
      some (Text.trimStart left, Text.trimEnd right) := by
    rw [htrim]
    apply Text.cut?_append (by decide)
    intro hin
    apply h.first
    obtain ⟨blanks, -, hleft⟩ := Text.exists_trimStart left
    rw [hleft, List.append_assoc]
    exact hin.trans (List.suffix_append blanks _).isInfix
  rw [read, ofTrimmed, hne, h.notNative, hcut]
  rfl

theorem read_of_reading (h : ArrowForm expr left right) {result : Except TemplateError Loop}
    (hreading : ArrowReading expr left right result) : read expr = result := by
  rw [h.read_eq]
  cases hreading with
  | incomplete hblank =>
    have hempty : ((Text.trim left).isEmpty || (Text.trim right).isEmpty) = true := by
      simpa [Text.trim_eq_nil_iff] using hblank
    simp only [ofArrow, Text.trim_trimStart, Text.trim_trimEnd, hempty]
    rfl
  | values hleft hright hcomma =>
    -- what trimming leaves is part of the text, so no comma comes in
    have hnone : Text.cut? [','] (Text.trim right) = none := by
      rw [Text.cut?_eq_none_iff]
      intro hin
      obtain ⟨before, after, -, -, hright⟩ := Text.exists_trim right
      apply hcomma
      rw [hright]
      simp [hin.subset List.mem_cons_self]
    rw [ofArrow_trimmed hleft hright, hnone]
  | @pairs key value hleft hkey =>
    have hstart : ',' ∉ Text.trimStart key := by
      intro hmem
      exact hkey ((List.dropWhile_suffix isBlank).subset hmem)
    rw [ofArrow_trimmed hleft (not_blank_comma key value), trim_comma, cut?_comma hstart]
    simp only [Text.trim_trimStart, Text.trim_trimEnd]

end ArrowForm

theorem exists_arrowReading (expr left right : Text) :
    ∃ result, ArrowReading expr left right result := by
  by_cases hblank : left.Blank ∨ right.Blank
  · exact ⟨_, .incomplete hblank⟩
  · rw [not_or] at hblank
    by_cases hcomma : ',' ∈ right
    · obtain ⟨key, value, rfl, hkey⟩ := List.eq_append_cons_of_mem hcomma
      exact ⟨_, .pairs hblank.1 hkey⟩
    · exact ⟨_, .values hblank.1 hblank.2 hcomma⟩

theorem missesName_iff {key value : Text} (hkey : ',' ∉ key) :
    MissesName (key ++ ',' :: value) ↔ key.Blank ∨ value.Blank := by
  constructor
  · rintro ⟨first, last, hsplit, hfirst, hblank⟩
    have hcut := cut?_comma hfirst last
    rw [← hsplit, cut?_comma hkey, Option.some_inj, Prod.mk.injEq] at hcut
    rwa [hcut.1, hcut.2]
  · intro hblank
    exact ⟨key, value, rfl, hkey, hblank⟩

theorem ArrowReading.complete_iff {loop : Loop} (h : ArrowReading expr left right (.ok loop)) :
    loop.Complete ↔ ¬ MissesName right := by
  cases h with
  | values hleft hright hcomma =>
    have hmisses : ¬ MissesName right := by
      rintro ⟨key, value, rfl, -, -⟩
      exact hcomma (by simp)
    exact iff_of_true (.values (mt Text.blank_trim_iff.1 hleft) (mt Text.blank_trim_iff.1 hright)) hmisses
  | pairs hleft hkey =>
    rw [missesName_iff hkey, not_or]
    constructor
    · intro hcomplete
      cases hcomplete with
      | pairs _ hk hv => exact ⟨mt Text.blank_trim_iff.2 hk, mt Text.blank_trim_iff.2 hv⟩
    · rintro ⟨hk, hv⟩
      exact .pairs (mt Text.blank_trim_iff.1 hleft) (mt Text.blank_trim_iff.1 hk)
        (mt Text.blank_trim_iff.1 hv)

/-- What an arrow loop is read as, and which of the accepted ones are complete. -/
theorem read_arrowForm (h : ArrowForm expr left right) :
    (∀ result, read expr = result ↔ ArrowReading expr left right result) ∧
      ∀ loop, read expr = .ok loop → (loop.Complete ↔ ¬ MissesName right) := by
  have hread : ∀ result, read expr = result ↔ ArrowReading expr left right result := by
    intro result
    refine ⟨?_, h.read_of_reading⟩
    rintro rfl
    obtain ⟨result, hreading⟩ := exists_arrowReading expr left right
    rwa [h.read_of_reading hreading]
  refine ⟨hread, ?_⟩
  intro loop hloop
  exact ((hread _).1 hloop).complete_iff

theorem read_arrowForm_missingKey :
    ArrowForm "$a => \u00A0,$v".toList "$a ".toList " \u00A0,$v".toList ∧
      read "$a => \u00A0,$v".toList = .ok (.pairs "$a".toList [] "$v".toList) ∧
      ¬ Complete (.pairs "$a".toList [] "$v".toList) := by
  have hform : ArrowForm "$a => \u00A0,$v".toList "$a ".toList " \u00A0,$v".toList :=
    ⟨by decide, by decide, by decide⟩
  have hread : read "$a => \u00A0,$v".toList = .ok (.pairs "$a".toList [] "$v".toList) := by
    decide +kernel
  refine ⟨hform, hread, ?_⟩
  rw [(read_arrowForm hform).2 _ hread, not_not]
  exact ⟨" \u00A0".toList, "$v".toList, rfl, by decide, .inl (Text.forall_of_all (by decide))⟩

theorem not_forall_complete :
    ¬ ∀ expr left right loop, ArrowForm expr left right → read expr = .ok loop → loop.Complete := by
  intro h
  have hread : read "a=>b,".toList = .ok (.pairs ['a'] ['b'] []) := by decide +kernel
  have hcomplete := h _ ['a'] "b,".toList _ ⟨by decide, by decide, by decide⟩ hread
  cases hcomplete with
  | pairs _ _ hvalue => exact hvalue fun c hc => absurd hc List.not_mem_nil

end MarkupTemplate.Loop
