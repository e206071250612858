import Mathlib.Tactic
import MarkupTemplate.Asset
import MarkupTemplate.Proofs.Text

/-!
# The integer at the head of a text

Blanks, signs and digits are different characters, so a text that begins with blanks, a sign or none and a
digit can be taken apart in one way only, and the row of digits ends where the first other character
stands. Reading such a text gives the number that the digits write, unless they are more than an integer
may have; reading any other text gives zero. In particular an index is read back from its decimal form,
whatever stands behind it.
-/

namespace MarkupTemplate

namespace Text

/-- `s` begins with an integer of `count` digits; blanks and a sign may stand before them. -/
def BeginsWithDigits (count : Nat) (s : Text) : Prop :=
  ∃ blanks sign digits rest, s = blanks ++ (sign ++ (digits ++ rest)) ∧
    (∀ c ∈ blanks, isBlank c = true) ∧ sign ∈ [[], ['-'], ['+']] ∧
    (∀ c ∈ digits, isDigit c = true) ∧ (∀ c ∈ rest.head?, isDigit c = false) ∧
    digits.length = count

def BeginsWithInteger (s : Text) : Prop :=
  ∃ blanks sign digit rest, s = blanks ++ (sign ++ digit :: rest) ∧ Blank blanks ∧
    sign ∈ [[], ['-'], ['+']] ∧ isDigit digit = true

theorem not_isBlank_of_isDigit {c : Char} (h : isDigit c = true) : isBlank c = false := by
  have hcodes : ∀ n ∈ blankCodes, digitOfCode? n = none := by decide
  by_contra hblank
  have hnone := hcodes c.toNat (toNat_mem_blankCodes (Bool.not_eq_false _ ▸ hblank))
  simp [isDigit, digitValue?, hnone] at h

theorem leadingDigits_eq (s : Text) : leadingDigits s = (s.takeWhile isDigit).filterMap digitValue? := by
  induction s with
  | nil => rfl
  | cons c s ih => cases hd : digitValue? c <;> simp [leadingDigits, isDigit, hd, ih]

theorem length_leadingDigits (s : Text) : (leadingDigits s).length = (s.takeWhile isDigit).length := by
  rw [leadingDigits_eq, List.filterMap_length_eq_length]
  intro c hc
  have hdigit : isDigit c = true := List.mem_takeWhile_imp hc
  exact hdigit

theorem exists_splitSign (s : Text) : ∃ sign ∈ [[], ['-'], ['+']], s = sign ++ (splitSign s).2 := by
  unfold splitSign
  split
  · exact ⟨['-'], by simp, rfl⟩
  · exact ⟨['+'], by simp, rfl⟩
  · exact ⟨[], by simp, rfl⟩

theorem exists_splitSign_trimStart (s : Text) : ∃ blanks sign, Blank blanks ∧ sign ∈ [[], ['-'], ['+']] ∧
    s = blanks ++ (sign ++ (splitSign (trimStart s)).2) := by
  obtain ⟨blanks, hblanks, hs⟩ := exists_trimStart s
  obtain ⟨sign, hsign, ht⟩ := exists_splitSign (trimStart s)
  refine ⟨blanks, sign, List.all_eq_true.1 hblanks, hsign, ?_⟩
  rw [← ht]
  exact hs

section Parts

variable {blanks sign s : Text} (hsign : sign ∈ [[], ['-'], ['+']]) (hs : ∀ c ∈ s.head?, isDigit c = true)

include hsign hs

theorem splitSign_append : splitSign (sign ++ s) = (decide (sign = ['-']), s) := by
  simp only [List.mem_cons, List.not_mem_nil, or_false] at hsign
  rcases hsign with rfl | rfl | rfl
  · cases s with
    | nil => rfl
    | cons c s =>
      have hc := hs c rfl
      unfold splitSign
      split
      · next he => cases he; exact absurd hc (by decide)
      · next he => cases he; exact absurd hc (by decide)
      · rfl
  · rfl
  · rfl

theorem splitSign_trimStart (hblanks : blanks.Blank) :
    splitSign (trimStart (blanks ++ (sign ++ s))) = (decide (sign = ['-']), s) := by
  have hhead : ∀ c ∈ (sign ++ s).head?, isBlank c = false := by
    simp only [List.mem_cons, List.not_mem_nil, or_false] at hsign
    rcases hsign with rfl | rfl | rfl
    · exact fun c hc => not_isBlank_of_isDigit (hs c hc)
    · simp; decide
    · simp; decide
  rw [trimStart_append hblanks hhead, splitSign_append hsign hs]

end Parts

theorem beginsWithInteger_iff {s : Text} :
    s.BeginsWithInteger ↔ (splitSign (trimStart s)).2.head?.any isDigit = true := by
  constructor
  · rintro ⟨blanks, sign, digit, rest, rfl, hblanks, hsign, hdigit⟩
    rw [splitSign_trimStart hsign (by simpa using hdigit) hblanks]
    simpa using hdigit
  · intro h
    obtain ⟨blanks, sign, hblanks, hsign, hs⟩ := exists_splitSign_trimStart s
    cases hrest : (splitSign (trimStart s)).2 with
    | nil => simp [hrest] at h
    | cons digit rest =>
      rw [hrest] at h hs
      exact ⟨blanks, sign, digit, rest, hs, hblanks, hsign, by simpa using h⟩

instance (s : Text) : Decidable s.BeginsWithInteger :=
  decidable_of_iff _ beginsWithInteger_iff.symm

theorem leadingInteger_eq_error_iff {s : Text} {e : TooManyDigits} :
    leadingInteger s = .error e ↔ digitLimit < e.count ∧ BeginsWithDigits e.count s := by
  obtain ⟨count⟩ := e
  have herror : leadingInteger s = .error ⟨count⟩ ↔
      digitLimit < count ∧ ((splitSign (trimStart s)).2.takeWhile isDigit).length = count := by
    rw [← length_leadingDigits]
    unfold leadingInteger
    dsimp only
    split_ifs with h <;> simp <;> omega
  rw [herror]
  refine and_congr_right fun hcount => ⟨fun hlength => ?_, ?_⟩
  · obtain ⟨blanks, sign, hblanks, hsign, hs⟩ := exists_splitSign_trimStart s
    refine ⟨blanks, sign, (splitSign (trimStart s)).2.takeWhile isDigit,
      (splitSign (trimStart s)).2.dropWhile isDigit, ?_, hblanks, hsign,
      fun c hc => List.mem_takeWhile_imp hc, fun c hc => ?_, hlength⟩
    · rw [List.takeWhile_append_dropWhile]
      exact hs
    · have hstop := List.head?_dropWhile_not isDigit (splitSign (trimStart s)).2
      rw [hc] at hstop
      simpa using hstop
  · -- too many digits are at least one, so blanks, sign and digits can be told apart
    rintro ⟨blanks, sign, digits, rest, rfl, hblanks, hsign, hdigits, hrest, rfl⟩
    obtain ⟨d, ds, rfl⟩ : ∃ d ds, digits = d :: ds := by
      apply List.exists_cons_of_ne_nil
      rintro rfl
      simp at hcount
    have hd : isDigit d = true := hdigits d (by simp)
    rw [splitSign_trimStart hsign (by simpa using hd) hblanks, takeWhile_append_of_stop hdigits hrest]

theorem leadingInteger_append {blanks sign digits rest : Text} (hblanks : blanks.Blank)
    (hsign : sign ∈ [[], ['-'], ['+']]) (hne : digits ≠ []) (hdigits : ∀ c ∈ digits, isDigit c = true)
    (hrest : ∀ c ∈ rest.head?, isDigit c = false) (hlimit : digits.length ≤ digitLimit) :
    leadingInteger (blanks ++ (sign ++ (digits ++ rest))) =
      .ok (signed (decide (sign = ['-'])) (ofDigits (digits.filterMap digitValue?))) := by
  have hhead : ∀ c ∈ (digits ++ rest).head?, isDigit c = true := by
    intro c hc
    rw [List.head?_append_of_ne_nil _ hne] at hc
    exact hdigits c (List.mem_of_mem_head? hc)
  have htaken : (digits ++ rest).takeWhile isDigit = digits := takeWhile_append_of_stop hdigits hrest
  have hcount : ¬ (leadingDigits (digits ++ rest)).length > digitLimit := by
    rw [length_leadingDigits, htaken]
    omega
  unfold leadingInteger
  rw [splitSign_trimStart hsign hhead hblanks]
  dsimp only
  rw [if_neg hcount, leadingDigits_eq, htaken]

theorem leadingInteger_of_not_beginsWithInteger {s : Text} (h : ¬ s.BeginsWithInteger) :
    leadingInteger s = .ok 0 := by
  rw [beginsWithInteger_iff] at h
  have hdigits : leadingDigits (splitSign (trimStart s)).2 = [] := by
    rw [leadingDigits_eq]
    cases hrest : (splitSign (trimStart s)).2 with
    | nil => rfl
    | cons c rest =>
      have hc : isDigit c = false := by simpa [hrest] using h
      simp [hc]
  unfold leadingInteger
  dsimp only
  rw [hdigits]
  simp [ofDigits, signed]

-- decimal forms are written with the ASCII digits alone
theorem digitValue?_of_ascii {c : Char} (h : c.isDigit = true) :
    digitValue? c = some (c.toNat - '0'.toNat) := by
  have hrange : 48 ≤ c.toNat ∧ c.toNat ≤ 57 := by
    simpa [Char.isDigit, UInt32.le_iff_toNat_le] using h
  rw [digitValue?, digitOfCode?, if_pos (by omega), if_pos (by simpa using hrange)]
  rfl

theorem isDigit_of_mem_toDigits {n : Nat} {c : Char} (h : c ∈ Nat.toDigits 10 n) : isDigit c = true := by
  have hascii := Nat.isDigit_of_mem_toDigits (by decide) (by decide) h
  rw [isDigit, digitValue?_of_ascii hascii]
  rfl

theorem ofDigits_toDigits (n : Nat) : ofDigits ((Nat.toDigits 10 n).filterMap digitValue?) = n := by
  have hvalues : (Nat.toDigits 10 n).filterMap digitValue? =
      (Nat.toDigits 10 n).map fun c => c.toNat - '0'.toNat := by
    rw [← List.filterMap_eq_map]
    apply List.filterMap_congr
    intro c hc
    exact digitValue?_of_ascii (Nat.isDigit_of_mem_toDigits (by decide) (by decide) hc)
  rw [hvalues, ofDigits, List.foldl_map]
  exact Nat.ofDigitChars_toDigits (by decide) (by decide)

theorem decimal_of_neg {n : Int} (h : n < 0) : decimal n = '-' :: Nat.toDigits 10 n.natAbs :=
  if_pos h

theorem decimal_of_nonneg {n : Int} (h : 0 ≤ n) : decimal n = Nat.toDigits 10 n.natAbs :=
  if_neg (not_lt.2 h)

theorem signed_natAbs (n : Int) : signed (decide (n < 0)) n.natAbs = n := by
  simp only [signed, decide_eq_true_eq]
  split <;> omega

theorem countP_decimal (n : Int) : (decimal n).countP isDigit = (Nat.toDigits 10 n.natAbs).length := by
  have hdigits : (Nat.toDigits 10 n.natAbs).countP isDigit = (Nat.toDigits 10 n.natAbs).length :=
    List.countP_eq_length.2 fun c hc => isDigit_of_mem_toDigits hc
  rcases lt_or_ge n 0 with hn | hn
  · rw [decimal_of_neg hn, List.countP_cons_of_neg (by decide), hdigits]
  · rw [decimal_of_nonneg hn, hdigits]

section Decimal

variable {blanks rest : Text} {n : Int} (hblanks : blanks.Blank)
  (hrest : ∀ c ∈ rest.head?, isDigit c = false) (hlimit : (decimal n).countP isDigit ≤ digitLimit)

include hblanks hrest hlimit

theorem leadingInteger_toDigits (sign : Text) (hsign : sign ∈ [[], ['-'], ['+']]) :
    leadingInteger (blanks ++ (sign ++ (Nat.toDigits 10 n.natAbs ++ rest))) =
      .ok (signed (decide (sign = ['-'])) n.natAbs) := by
  have hdigits : ∀ c ∈ Nat.toDigits 10 n.natAbs, isDigit c = true := fun c hc => isDigit_of_mem_toDigits hc
  rw [countP_decimal] at hlimit
  rw [leadingInteger_append hblanks hsign Nat.toDigits_ne_nil hdigits hrest hlimit, ofDigits_toDigits]

theorem leadingInteger_decimal : leadingInteger (blanks ++ decimal n ++ rest) = .ok n := by
  rw [List.append_assoc]
  conv_rhs => rw [← signed_natAbs n]
  rcases lt_or_ge n 0 with hn | hn
  · rw [decimal_of_neg hn, decide_eq_true hn]
    exact leadingInteger_toDigits hblanks hrest hlimit ['-'] (by simp)
  · rw [decimal_of_nonneg hn, decide_eq_false (not_lt.2 hn)]
    exact leadingInteger_toDigits hblanks hrest hlimit [] (by simp)

theorem leadingInteger_plus_decimal (hn : 0 ≤ n) :
    leadingInteger (blanks ++ '+' :: decimal n ++ rest) = .ok n := by
  rw [List.append_assoc]
  conv_rhs => rw [← signed_natAbs n]
  rw [decimal_of_nonneg hn, decide_eq_false (not_lt.2 hn)]
  exact leadingInteger_toDigits hblanks hrest hlimit ['+'] (by simp)

end Decimal

end Text

/-- An index is read back from its decimal form, also with a plus sign before it where it is not negative,
whatever blanks stand before it and whatever but a digit follows; a text that does not begin with an
integer is read as zero. -/
theorem readIndex_roundTrip :
    (∀ (n : Int) (blanks rest : Text), (Text.decimal n).countP isDigit ≤ 4300 → blanks.Blank →
      (∀ c ∈ rest.head?, isDigit c = false) →
      readIndex (some (.text (blanks ++ Text.decimal n ++ rest))) = .ok n ∧
        (0 ≤ n → readIndex (some (.text (blanks ++ '+' :: Text.decimal n ++ rest))) = .ok n)) ∧
    ∀ value : Text, ¬ value.BeginsWithInteger → readIndex (some (.text value)) = .ok 0 := by
  constructor
  · intro n blanks rest hlimit hblanks hrest
    exact ⟨Text.leadingInteger_decimal hblanks hrest hlimit,
      Text.leadingInteger_plus_decimal hblanks hrest hlimit⟩
  · intro value hvalue
    exact Text.leadingInteger_of_not_beginsWithInteger hvalue

theorem readIndex_roundTrip_samples :
    ((Text.decimal (-12)).countP isDigit ≤ 4300 ∧ (Text.decimal 7).countP isDigit ≤ 4300 ∧
      Text.Blank ['\t', '\u3000'] ∧ (∀ c ∈ "nd 3".toList.head?, isDigit c = false) ∧
      ¬ Text.BeginsWithInteger "- 1".toList) ∧
    readIndex (some (.text "\t\u3000-12nd 3".toList)) = .ok (-12) ∧
    readIndex (some (.text "\t\u3000+7nd 3".toList)) = .ok 7 ∧
    readIndex (some (.text "- 1".toList)) = .ok 0 := by
  have hminus : (Text.decimal (-12)).countP isDigit ≤ 4300 := by decide
  have hplus : (Text.decimal 7).countP isDigit ≤ 4300 := by decide
  have hblanks : Text.Blank ['\t', '\u3000'] := Text.forall_of_all (by decide)
  have hrest : ∀ c ∈ "nd 3".toList.head?, isDigit c = false := by simp; decide
  have hnone : ¬ Text.BeginsWithInteger "- 1".toList := by decide
  exact ⟨⟨hminus, hplus, hblanks, hrest, hnone⟩,
    (readIndex_roundTrip.1 (-12) _ _ hminus hblanks hrest).1,
    (readIndex_roundTrip.1 7 _ _ hplus hblanks hrest).2 (by decide), readIndex_roundTrip.2 _ hnone⟩

end MarkupTemplate
