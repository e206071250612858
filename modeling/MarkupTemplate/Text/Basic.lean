/-!
# Text

Templates, code fragments and compiled pages are sequences of Unicode characters. They are lists of
characters here, so positions and lengths count characters. A text is cut at the first occurrence of a
mark, and an integer is written in decimal. Text from outside becomes a list at the edge of the program.
-/

namespace MarkupTemplate

abbrev Text := List Char

namespace Text

theorem isPrefixOf?_eq_some_iff {mark s rest : Text} :
    List.isPrefixOf? mark s = some rest ↔ s = mark ++ rest := by
  induction mark generalizing s with
  | nil =>
    have hall : List.isPrefixOf? [] s = some s := rfl
    rw [hall, Option.some_inj, List.nil_append]
  | cons m mark ih =>
    cases s with
    | nil =>
      have hnone : List.isPrefixOf? (m :: mark) [] = none := rfl
      simp [hnone]
    | cons c s =>
      have hstep : List.isPrefixOf? (m :: mark) (c :: s) =
          if m == c then List.isPrefixOf? mark s else none := rfl
      rw [hstep]
      by_cases h : m = c
      · simp [h, ih]
      · simp [h, Ne.symm h]

/-- The parts of `s` before and after the first occurrence of `mark`. -/
def cut? (mark : Text) : Text → Option (Text × Text)
  | [] => (List.isPrefixOf? mark []).map fun rest => ([], rest)
  | c :: s =>
    match List.isPrefixOf? mark (c :: s) with
    | some rest => some ([], rest)
    | none => (cut? mark s).map fun (before, rest) => (c :: before, rest)

theorem append_of_cut? {mark s before rest : Text} (h : cut? mark s = some (before, rest)) :
    s = before ++ mark ++ rest := by
  induction s generalizing before with
  | nil =>
    obtain ⟨r, hr, he⟩ := Option.map_eq_some_iff.1 h
    cases he
    simpa using isPrefixOf?_eq_some_iff.1 hr
  | cons c s ih =>
    unfold cut? at h
    split at h
    · next r hr =>
      cases h
      simpa using isPrefixOf?_eq_some_iff.1 hr
    · obtain ⟨⟨b, r⟩, hr, he⟩ := Option.map_eq_some_iff.1 h
      cases he
      simp [ih hr]

def occursIn (mark s : Text) : Bool :=
  (cut? mark s).isSome

def partition (mark s : Text) : Text × Text :=
  (cut? mark s).getD (s, [])

def decimal (n : Int) : Text :=
  if n < 0 then '-' :: Nat.toDigits 10 n.natAbs else Nat.toDigits 10 n.natAbs

def ofNat (n : Nat) : Text :=
  Nat.toDigits 10 n

end Text

def inRanges (ranges : List (Nat × Nat)) (n : Nat) : Bool :=
  ranges.any fun (first, last) => first ≤ n && n ≤ last

end MarkupTemplate
