import MarkupTemplate.Proofs.ArrowLoops
import MarkupTemplate.Proofs.LoopCheck

/-!
# Two notations for one loop

A loop over a collection can be written with an arrow or in the notation of the host language. How an
expression is read is decided by searching the whole of it, first for an `as` between blanks, then for an
arrow, then for a comma behind the arrow. So the parts may hold further arrows and commas: only the
collection must be free of arrows, and the key, or the value where there is no key, of commas. The arrow
expression must hold no `as` between blanks, since it would be taken for the other notation.
-/

namespace MarkupTemplate.Loop

def WritesAs (s : Text) : Prop :=
  ∃ (front back : Text) (c d : Char), isBlank c = true ∧ isBlank d = true ∧
    s = front ++ c :: 'a' :: 's' :: d :: back

theorem hasAs_iff {s : Text} : hasAs s = true ↔ WritesAs s := by
  induction s with
  | nil =>
    apply iff_of_false (by decide)
    rintro ⟨front, back, c, d, -, -, hs⟩
    exact absurd hs (by simp)
  | cons e s ih =>
    constructor
    · intro h
      rcases Bool.or_eq_true_iff.1 h with hhead | htail
      · obtain ⟨he, has⟩ := Bool.and_eq_true_iff.1 hhead
        clear h hhead
        split at has
        · next d back => exact ⟨[], back, e, d, he, has, rfl⟩
        · exact absurd has (by decide)
      · obtain ⟨front, back, c, d, hc, hd, rfl⟩ := ih.1 htail
        exact ⟨e :: front, back, c, d, hc, hd, rfl⟩
    · rintro ⟨front, back, c, d, hc, hd, hs⟩
      cases front with
      | nil =>
        cases hs
        exact Bool.or_eq_true_iff.2 (.inl (Bool.and_eq_true_iff.2 ⟨hc, hd⟩))
      | cons f front =>
        cases hs
        exact Bool.or_eq_true_iff.2 (.inr (ih.2 ⟨front, back, c, d, hc, hd, rfl⟩))

def markers (expr : Text) : Except TemplateError (Text × Text) :=
  (read expr).map fun loop => (loop.opening, loop.closing)

def foreachMarkers (content : Text) : Text × Text :=
  ("<?php foreach(".toList ++ content ++ "): ?>".toList, "<?php endforeach; ?>".toList)

def asWord : Text :=
  " as ".toList

/-- The same parts in the arrow notation and in the notation of the host language. -/
inductive SameParts : Text → Text → Prop
  | values {collection before after value : Text} (hcollection : collection.Trimmed)
      (harrow : ¬ arrow <:+: collection) (hvalue : value.Trimmed) (hcomma : ',' ∉ value)
      (hbefore : before.Blank) (hafter : after.Blank) :
      SameParts (collection ++ before ++ arrow ++ (after ++ value)) (collection ++ asWord ++ value)
  | pairs {collection before after key front back value : Text} (hcollection : collection.Trimmed)
      (harrow : ¬ arrow <:+: collection) (hkey : key.Trimmed) (hcomma : ',' ∉ key)
      (hvalue : value.Trimmed) (hbefore : before.Blank) (hafter : after.Blank)
      (hfront : front.Blank) (hback : back.Blank) :
      SameParts (collection ++ before ++ arrow ++ (after ++ key ++ front ++ ',' :: (back ++ value)))
        (collection ++ asWord ++ (key ++ " => ".toList ++ value))

theorem comma_not_mem_blank {blanks : Text} (h : blanks.Blank) : ',' ∉ blanks := by
  intro hmem
  exact absurd (h ',' hmem) (by decide)

section Arrow

variable {collection before right : Text} (hcollection : collection.Trimmed)
  (harrow : ¬ arrow <:+: collection) (hbefore : before.Blank)

include harrow hbefore in
theorem first_arrow : ¬ arrow <:+: collection ++ before ++ ['='] := by
  intro h
  apply harrow
  rw [List.append_assoc] at h
  apply Text.infix_of_infix_append (c := '>') rfl _ h
  intro hmem
  rcases List.mem_append.1 hmem with hmem | hmem
  · exact absurd (hbefore '>' hmem) (by decide)
  · exact absurd hmem (by decide)

include hcollection harrow hbefore

theorem arrowForm_of_parts {middle value : Text} (hvalue : value.Trimmed)
    (has : ¬ WritesAs (collection ++ before ++ arrow ++ (middle ++ value))) :
    ArrowForm (collection ++ before ++ arrow ++ (middle ++ value)) (collection ++ before)
      (middle ++ value) where
  split := rfl
  first := first_arrow harrow hbefore
  notNative := by
    have htrim := (hcollection.enclose hvalue (before ++ arrow ++ middle)).trim_eq
    simp only [List.append_assoc] at htrim has ⊢
    rw [htrim]
    exact Bool.eq_false_iff.2 (mt hasAs_iff.1 has)

theorem read_values {after value : Text} (hvalue : value.Trimmed) (hcomma : ',' ∉ value)
    (hafter : after.Blank)
    (has : ¬ WritesAs (collection ++ before ++ arrow ++ (after ++ value))) :
    read (collection ++ before ++ arrow ++ (after ++ value)) = .ok (.values collection value) := by
  have hform := arrowForm_of_parts hcollection harrow hbefore hvalue has
  have hleft : Text.trim (collection ++ before) = collection := by
    rw [Text.trim_append_blank hbefore, hcollection.trim_eq]
  have hright : Text.trim (after ++ value) = value := by
    rw [Text.trim_blank_append hafter, hvalue.trim_eq]
  have hnone : ',' ∉ after ++ value := by
    simp [hcomma, comma_not_mem_blank hafter]
  have hread := hform.read_of_reading
    (.values (hcollection.not_blank hleft) (hvalue.not_blank hright) hnone)
  rwa [hleft, hright] at hread

theorem read_pairs {after key front back value : Text} (hkey : key.Trimmed) (hcomma : ',' ∉ key)
    (hvalue : value.Trimmed) (hafter : after.Blank) (hfront : front.Blank) (hback : back.Blank)
    (has : ¬ WritesAs (collection ++ before ++ arrow ++
      (after ++ key ++ front ++ ',' :: (back ++ value)))) :
    read (collection ++ before ++ arrow ++ (after ++ key ++ front ++ ',' :: (back ++ value))) =
      .ok (.pairs collection key value) := by
  have hsplit : after ++ key ++ front ++ ',' :: (back ++ value) =
      (after ++ key ++ front ++ ',' :: back) ++ value := by simp
  have hform : ArrowForm (collection ++ before ++ arrow ++
      (after ++ key ++ front ++ ',' :: (back ++ value))) (collection ++ before)
      (after ++ key ++ front ++ ',' :: (back ++ value)) := by
    rw [hsplit] at has ⊢
    exact arrowForm_of_parts hcollection harrow hbefore hvalue has
  have hleft : Text.trim (collection ++ before) = collection := by
    rw [Text.trim_append_blank hbefore, hcollection.trim_eq]
  have hfirst : Text.trim (after ++ key ++ front) = key := by
    rw [Text.trim_append_blank hfront, Text.trim_blank_append hafter, hkey.trim_eq]
  have hsecond : Text.trim (back ++ value) = value := by
    rw [Text.trim_blank_append hback, hvalue.trim_eq]
  have hnone : ',' ∉ after ++ key ++ front := by
    simp [hcomma, comma_not_mem_blank hafter, comma_not_mem_blank hfront]
  have hread := hform.read_of_reading (.pairs (hcollection.not_blank hleft) hnone)
  rwa [hleft, hfirst, hsecond] at hread

end Arrow

theorem read_native {front back : Text} (hfront : front.Trimmed) (hback : back.Trimmed) :
    read (front ++ asWord ++ back) = .ok (.native (front ++ asWord ++ back)) := by
  have hne : (front ++ asWord ++ back).isEmpty = false := by
    simp [asWord]
  have has : hasAs (front ++ asWord ++ back) = true :=
    hasAs_iff.2 ⟨front, back, ' ', ' ', by decide, by decide, by simp [asWord]⟩
  rw [read, (hfront.enclose hback asWord).trim_eq, ofTrimmed, hne, has]
  rfl

theorem markers_of_read {expr : Text} {loop : Loop} (h : read expr = .ok loop)
    (hkeyword : loop.keyword = "foreach(".toList)
    (hclosing : loop.closing = "<?php endforeach; ?>".toList) :
    markers expr = .ok (foreachMarkers loop.content) := by
  have hstart : "<?php foreach(".toList = "<?php ".toList ++ "foreach(".toList := by decide
  have hend : "): ?>".toList = [')'] ++ ": ?>".toList := by decide
  have hopening : loop.opening = "<?php foreach(".toList ++ loop.content ++ "): ?>".toList := by
    rw [opening_eq, hkeyword, hstart, hend]
  have hpair : (loop.opening, loop.closing) = foreachMarkers loop.content :=
    Prod.ext hopening hclosing
  rw [markers, h, ← hpair]
  rfl

namespace SameParts

variable {written host : Text}

theorem markers_host (h : SameParts written host) :
    markers host = .ok (foreachMarkers host) := by
  have hread : read host = .ok (.native host) := by
    cases h with
    | values hcollection _ hvalue => exact read_native hcollection hvalue
    | pairs hcollection _ hkey _ hvalue => exact read_native hcollection (hkey.enclose hvalue _)
  exact markers_of_read hread rfl rfl

theorem markers_written (h : SameParts written host) (has : ¬ WritesAs written) :
    markers written = .ok (foreachMarkers host) := by
  cases h with
  | @values collection before after value hcollection harrow hvalue hcomma hbefore hafter =>
    have hcontent : collection ++ asWord ++ value = content (.values collection value) :=
      List.append_assoc collection asWord value
    rw [hcontent]
    apply markers_of_read _ rfl rfl
    exact read_values hcollection harrow hbefore hvalue hcomma hafter has
  | @pairs collection before after key front back value hcollection harrow hkey hcomma hvalue
      hbefore hafter hfront hback =>
    have hcontent : collection ++ asWord ++ (key ++ " => ".toList ++ value) =
        content (.pairs collection key value) := by
      change _ = collection ++ asWord ++ key ++ (" => ".toList ++ value)
      simp only [List.append_assoc]
    rw [hcontent]
    apply markers_of_read _ rfl rfl
    exact read_pairs hcollection harrow hbefore hkey hcomma hvalue hafter hfront hback has

end SameParts

/-- A loop in the arrow notation and the same loop in the notation of the host language have the same
markers. -/
theorem notations_agree {written host : Text} (h : SameParts written host)
    (has : ¬ WritesAs written) :
    markers written = markers host ∧ markers host = .ok (foreachMarkers host) := by
  refine ⟨?_, h.markers_host⟩
  rw [h.markers_written has, h.markers_host]

theorem notations_agree_busyValue :
    SameParts "f(a, b)=\u2003=>\n$k ,\t$v,=> as".toList "f(a, b)= as $k => $v,=> as".toList ∧
      ¬ WritesAs "f(a, b)=\u2003=>\n$k ,\t$v,=> as".toList ∧
      markers "f(a, b)=\u2003=>\n$k ,\t$v,=> as".toList =
        markers "f(a, b)= as $k => $v,=> as".toList := by
  have hparts : SameParts "f(a, b)=\u2003=>\n$k ,\t$v,=> as".toList
      "f(a, b)= as $k => $v,=> as".toList := by
    apply @SameParts.pairs "f(a, b)=".toList ['\u2003'] ['\n'] "$k".toList [' '] ['\t']
      "$v,=> as".toList
    · exact ⟨by decide, by decide⟩
    · decide
    · exact ⟨by decide, by decide⟩
    · decide
    · exact ⟨by decide, by decide⟩
    all_goals exact Text.forall_of_all (by decide)
  have has : ¬ WritesAs "f(a, b)=\u2003=>\n$k ,\t$v,=> as".toList :=
    mt hasAs_iff.2 (by decide)
  exact ⟨hparts, has, (notations_agree hparts has).1⟩

end MarkupTemplate.Loop
