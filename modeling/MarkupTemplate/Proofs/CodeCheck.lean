import Mathlib.Tactic
import MarkupTemplate.Code.Check
import MarkupTemplate.Proofs.Word

/-!
# Where the check finds something

Calls, inclusions and superglobals are found in the same way: somewhere in the code a match begins,
and the character before it does not bind. What the check finds in a concatenation is therefore what
it finds in both halves, provided that no match begins in the first and reaches into the second. Text
that ends every name, and in which no name begins, keeps its two sides apart.
-/

namespace MarkupTemplate.Code

def Found (here : Text → Bool) (binds : Char → Bool) (previous : Option Char) (s : Text) : Prop :=
  ∃ a b, s = a ++ b ∧ here b = true ∧ (a.getLast?.or previous).any binds = false

section Found

variable {here : Text → Bool} {binds : Char → Bool} {previous : Option Char}

theorem getLast?_cons_or (c : Char) (a : Text) :
    (c :: a).getLast?.or previous = a.getLast?.or (some c) := by
  rw [List.getLast?_cons]
  cases a.getLast? <;> rfl

theorem found_cons {c : Char} {s : Text} :
    Found here binds previous (c :: s) ↔
      (here (c :: s) = true ∧ previous.any binds = false) ∨ Found here binds (some c) s := by
  constructor
  · rintro ⟨a, b, hs, hb, hp⟩
    cases a with
    | nil =>
      rw [List.nil_append] at hs
      exact .inl ⟨hs ▸ hb, hp⟩
    | cons d a =>
      rw [List.cons_append, List.cons.injEq] at hs
      obtain ⟨rfl, rfl⟩ := hs
      rw [getLast?_cons_or] at hp
      exact .inr ⟨a, b, rfl, hb, hp⟩
  · rintro (⟨hb, hp⟩ | ⟨a, b, rfl, hb, hp⟩)
    · exact ⟨[], c :: s, rfl, hb, hp⟩
    · refine ⟨c :: a, b, rfl, hb, ?_⟩
      rw [getLast?_cons_or]
      exact hp

theorem found_nil (hn : here [] = false) : ¬ Found here binds previous [] := by
  rintro ⟨a, b, hs, hb, -⟩
  obtain ⟨-, rfl⟩ := List.append_eq_nil_iff.1 hs.symm
  rw [hn] at hb
  exact Bool.false_ne_true hb

theorem found_append_right {m b : Text}
    (h : ∀ u, u ≠ [] → u <:+ m → here (u ++ b) = false) :
    Found here binds previous (m ++ b) ↔ Found here binds (m.getLast?.or previous) b := by
  induction m generalizing previous with
  | nil => rfl
  | cons c m ih =>
    have hc := h (c :: m) (List.cons_ne_nil c m) List.suffix_rfl
    have htail : Found here binds (some c) (m ++ b) ↔
        Found here binds (m.getLast?.or (some c)) b :=
      ih fun u hu hs => h u hu (hs.trans (List.suffix_cons c m))
    rw [List.cons_append, found_cons, ← List.cons_append, hc, getLast?_cons_or, htail]
    simp

theorem found_append_left {a t : Text} (h : ∀ u, u ≠ [] → here (u ++ t) = here u)
    (hn : here [] = false) :
    Found here binds previous (a ++ t) ↔
      Found here binds previous a ∨ Found here binds (a.getLast?.or previous) t := by
  induction a generalizing previous with
  | nil => simp [found_nil hn]
  | cons c a ih =>
    have hc := h (c :: a) (List.cons_ne_nil c a)
    rw [List.cons_append, found_cons, found_cons, ih, ← List.cons_append, hc, getLast?_cons_or,
      or_assoc]

theorem found_congr_previous {other : Option Char} (h : previous.any binds = other.any binds)
    (s : Text) : Found here binds previous s ↔ Found here binds other s := by
  cases s with
  | nil =>
    constructor
    · rintro ⟨a, b, hs, hb, hp⟩
      obtain ⟨rfl, rfl⟩ := List.append_eq_nil_iff.1 hs.symm
      exact ⟨[], [], rfl, hb, h ▸ hp⟩
    · rintro ⟨a, b, hs, hb, hp⟩
      obtain ⟨rfl, rfl⟩ := List.append_eq_nil_iff.1 hs.symm
      exact ⟨[], [], rfl, hb, h ▸ hp⟩
  | cons c s => rw [found_cons, found_cons, h]

theorem found_append_append {a m b : Text} (hm : m ≠ []) (hn : here [] = false)
    (hleft : ∀ u, u ≠ [] → here (u ++ (m ++ b)) = here u)
    (hinside : ∀ u, u ≠ [] → u <:+ m → here (u ++ b) = false) :
    Found here binds previous (a ++ m ++ b) ↔
      Found here binds previous a ∨ Found here binds m.getLast? b := by
  rw [List.append_assoc, found_append_left hleft hn, found_append_right hinside]
  rw [List.getLast?_eq_some_getLast hm, Option.some_or]

end Found

theorem callsHere_nil {name : Text} (h : name ≠ []) : callsHere name [] = false := by
  cases name with
  | nil => exact absurd rfl h
  | cons p name => rfl

theorem callsAfter_iff {name s : Text} {previous : Option Char} (h : name ≠ []) :
    callsAfter previous name s = true ↔ Found (callsHere name) isWordChar previous s := by
  induction s generalizing previous with
  | nil => simp [callsAfter, found_nil (callsHere_nil h)]
  | cons c s ih => simp [callsAfter, found_cons, ih]

theorem inclusionAfter?_cons (previous : Option Char) (c : Char) (s : Text) :
    inclusionAfter? previous (c :: s) =
      match inclusionHere? (c :: s) with
      | some statement =>
        if previous.any bindsKeyword then inclusionAfter? (some c) s else some statement
      | none => inclusionAfter? (some c) s := by
  rfl

theorem inclusionAfter?_isSome_iff {s : Text} {previous : Option Char} :
    (inclusionAfter? previous s).isSome = true ↔
      Found (fun t => (inclusionHere? t).isSome) bindsKeyword previous s := by
  induction s generalizing previous with
  | nil =>
    have hnone : inclusionAfter? previous [] = none := rfl
    rw [hnone]
    exact iff_of_false Bool.false_ne_true (found_nil (by decide))
  | cons c s ih =>
    rw [found_cons, ← ih, inclusionAfter?_cons]
    cases inclusionHere? (c :: s) with
    | none => simp
    | some statement => cases hp : previous.any bindsKeyword <;> simp

theorem infix_iff_found {name s : Text} :
    name <:+: s ↔ Found (name.isPrefixOf ·) (fun _ => false) none s := by
  constructor
  · rintro ⟨a, b, rfl⟩
    refine ⟨a, name ++ b, by rw [List.append_assoc], ?_, ?_⟩
    · exact List.isPrefixOf_iff_prefix.2 (List.prefix_append name b)
    · cases (a.getLast?.or none) <;> rfl
  · rintro ⟨a, b, rfl, hb, -⟩
    obtain ⟨t, rfl⟩ := List.isPrefixOf_iff_prefix.1 hb
    exact ⟨a, t, by rw [List.append_assoc]⟩

theorem ascii_of_mem_forbidden :
    ∀ name ∈ forbiddenFunctions, ∀ p ∈ name, isAsciiWordChar p = true := by
  have hall : ∀ name ∈ forbiddenFunctions, name.all isAsciiWordChar = true := by decide +kernel
  exact fun name hn => List.all_eq_true.1 (hall name hn)

theorem ne_nil_of_mem_forbidden : ∀ name ∈ forbiddenFunctions, name ≠ [] := by
  decide +kernel

structure Stops (t : Text) : Prop where
  head : ∀ c ∈ t.head?, isWordChar c = false ∧ c ≠ '$'
  next : ∀ c ∈ (Text.trimStart t).head?, c ≠ '(' ∧ c ≠ '\'' ∧ c ≠ '"' ∧ c ≠ '$'

theorem isFormOf_of_stops (name : Text) {t : Text} (hn : ∀ p ∈ name, isAsciiWordChar p = true)
    (ht : Stops t) : ∀ c ∈ t.head?, ∀ p ∈ name, isFormOf p c = false := by
  intro c hc p hp
  by_contra h
  have hw := Text.isWordChar_of_isFormOf (hn p hp) (Bool.eq_true_of_not_eq_false h)
  rw [(ht.head c hc).1] at hw
  exact Bool.false_ne_true hw

theorem head?_trimStart_append (r t : Text) :
    (Text.trimStart (r ++ t)).head? = (Text.trimStart r).head?.or (Text.trimStart t).head? := by
  unfold Text.trimStart
  induction r with
  | nil => rfl
  | cons c r ih => by_cases hc : isBlank c = true <;> simp [hc, ih]

theorem callsHere_append {name t : Text} (hn : ∀ p ∈ name, isAsciiWordChar p = true)
    (ht : Stops t) (u : Text) : callsHere name (u ++ t) = callsHere name u := by
  unfold callsHere
  cases hu : Text.dropWord? name u with
  | none => rw [Text.dropWord?_append_of_none hu (isFormOf_of_stops name hn ht)]
  | some found =>
    obtain ⟨w, r⟩ := found
    rw [Text.dropWord?_append_of_some hu]
    dsimp only
    rw [head?_trimStart_append]
    cases (Text.trimStart r).head? with
    | some c => rfl
    | none =>
      rw [Option.none_or]
      cases hc : (Text.trimStart t).head? with
      | none => rfl
      | some c => simp [(ht.next c hc).1]

theorem inclusionWord?_append {t : Text} (ht : Stops t) (u : Text) :
    inclusionWord? (u ++ t) = (inclusionWord? u).map fun (word, rest) => (word, rest ++ t) := by
  have hi := isFormOf_of_stops "include".toList (Text.forall_of_all (by decide +kernel)) ht
  have hr := isFormOf_of_stops "require".toList (Text.forall_of_all (by decide +kernel)) ht
  unfold inclusionWord?
  cases hu : Text.dropWord? "include".toList u with
  | some found => rw [Text.dropWord?_append_of_some hu]; rfl
  | none =>
    rw [Text.dropWord?_append_of_none hu hi]
    cases hv : Text.dropWord? "require".toList u with
    | some found => rw [Text.dropWord?_append_of_some hv]; rfl
    | none => rw [Text.dropWord?_append_of_none hv hr]; rfl

theorem inclusionHere?_append {t : Text} (ht : Stops t) (u : Text) :
    inclusionHere? (u ++ t) = inclusionHere? u := by
  have ho := isFormOf_of_stops "_once".toList (Text.forall_of_all (by decide +kernel)) ht
  have hend : ∀ r : Text, ((Text.trimStart (r ++ t)).head?.any fun c => c == '\'' || c == '"' || c == '$')
      = (Text.trimStart r).head?.any fun c => c == '\'' || c == '"' || c == '$' := by
    intro r
    rw [head?_trimStart_append]
    cases (Text.trimStart r).head? with
    | some c => rfl
    | none =>
      rw [Option.none_or]
      cases hc : (Text.trimStart t).head? with
      | none => rfl
      | some c =>
        obtain ⟨-, h₁, h₂, h₃⟩ := ht.next c hc
        simp [h₁, h₂, h₃]
  unfold inclusionHere?
  rw [inclusionWord?_append ht]
  cases inclusionWord? u with
  | none => rfl
  | some found =>
    obtain ⟨word, rest⟩ := found
    dsimp only [Option.map_some]
    cases hu : Text.dropWord? "_once".toList rest with
    | some suffix =>
      rw [Text.dropWord?_append_of_some hu]
      simp only [Option.getD_some, hend]
    | none =>
      rw [Text.dropWord?_append_of_none hu ho]
      simp only [Option.getD_none, hend]

theorem superglobal_shape :
    ∀ name ∈ superglobals, name.head? = some '$' ∧ ∀ c ∈ name.tail, isWordChar c = true := by
  have hall : ∀ name ∈ superglobals, name.head? = some '$' ∧ name.tail.all isWordChar = true := by
    decide +kernel
  exact fun name hn => ⟨(hall name hn).1, List.all_eq_true.1 (hall name hn).2⟩

theorem superglobal_prefix_append {name t : Text} (hname : name ∈ superglobals) (ht : Stops t)
    {u : Text} (hu : u ≠ []) : name.isPrefixOf (u ++ t) = name.isPrefixOf u := by
  rw [Bool.eq_iff_iff, List.isPrefixOf_iff_prefix, List.isPrefixOf_iff_prefix]
  refine ⟨fun hp => ?_, fun hp => hp.trans (List.prefix_append u t)⟩
  rcases List.prefix_or_prefix_of_prefix hp (List.prefix_append u t) with h | ⟨rest, rfl⟩
  · exact h
  cases rest with
  | nil => rw [List.append_nil]
  | cons c rest =>
    -- the name would go on with a character that ends names
    have hc : c ∈ t.head? := by
      obtain ⟨r, hr⟩ := (List.prefix_append_right_inj u).1 hp
      rw [← hr]
      rfl
    have hw : isWordChar c = true := by
      refine (superglobal_shape _ hname).2 c ?_
      obtain ⟨d, v, rfl⟩ := List.exists_cons_of_ne_nil hu
      simp
    rw [(ht.head c hc).1] at hw
    exact absurd hw Bool.false_ne_true

def NoCall (previous : Option Char) (s : Text) : Prop :=
  ∀ name ∈ forbiddenFunctions, ¬ Found (callsHere name) isWordChar previous s

def NoInclusion (previous : Option Char) (s : Text) : Prop :=
  ¬ Found (fun t => (inclusionHere? t).isSome) bindsKeyword previous s

def NoSuperglobal (s : Text) : Prop :=
  ∀ name ∈ superglobals, ¬ name <:+: s

/-- None of the four searches finds anything in code that follows the character `previous`. The search
for superglobals is made in a form of its own, which keeps double-quoted literals. -/
structure Clean (previous : Option Char) (clean interpolating : Text) : Prop where
  noCall : NoCall previous clean
  noInclusion : NoInclusion previous clean
  noSuperglobal : NoSuperglobal interpolating
  noShell : '\x60' ∉ clean

/-- The check passes code whose stripped forms are clean. -/
theorem isSafe_iff {code : Text} :
    isSafe code = true ↔ Clean none (strip false code) (strip true code) := by
  have hcall : forbiddenFunctions.find? (calls · (strip false code)) = none ↔
      NoCall none (strip false code) := by
    rw [List.find?_eq_none]
    refine forall₂_congr fun name hname => ?_
    rw [calls, callsAfter_iff (ne_nil_of_mem_forbidden name hname)]
  have hinclusion : inclusion? (strip false code) = none ↔ NoInclusion none (strip false code) := by
    rw [inclusion?, NoInclusion, ← inclusionAfter?_isSome_iff, Bool.not_eq_true,
      Option.isSome_eq_false_iff, Option.isNone_iff_eq_none]
  have hglobal : superglobals.find? (Text.occursIn · (strip true code)) = none ↔
      NoSuperglobal (strip true code) := by
    rw [List.find?_eq_none]
    refine forall₂_congr fun name _ => ?_
    rw [Text.occursIn_iff]
  have hclean : Clean none (strip false code) (strip true code) ↔
      forbiddenFunctions.find? (calls · (strip false code)) = none ∧
        inclusion? (strip false code) = none ∧
        superglobals.find? (Text.occursIn · (strip true code)) = none ∧
        '\x60' ∉ strip false code := by
    rw [hcall, hinclusion, hglobal]
    exact ⟨fun ⟨h₁, h₂, h₃, h₄⟩ => ⟨h₁, h₂, h₃, h₄⟩, fun ⟨h₁, h₂, h₃, h₄⟩ => ⟨h₁, h₂, h₃, h₄⟩⟩
  rw [hclean, isSafe, violation?]
  cases forbiddenFunctions.find? (calls · (strip false code)) with
  | some name => simp
  | none =>
    cases inclusion? (strip false code) with
    | some statement => simp
    | none =>
      cases superglobals.find? (Text.occursIn · (strip true code)) with
      | some name => simp
      | none =>
        cases hs : (strip false code).contains '\x60' with
        | true => simpa using hs
        | false => simpa using hs

theorem isSafe_eq_of_strip {a b : Text} (h : ∀ keepDouble, strip keepDouble a = strip keepDouble b) :
    isSafe a = isSafe b := by
  rw [isSafe, isSafe, violation?, violation?, h false, h true]

theorem noCall_congr_previous {previous other : Option Char}
    (h : previous.any isWordChar = other.any isWordChar) (s : Text) :
    NoCall previous s ↔ NoCall other s :=
  forall₂_congr fun _ _ => not_congr (found_congr_previous h s)

theorem Clean.congr_previous {previous other : Option Char} {s s' : Text}
    (h : Clean previous s s') (hword : previous.any isWordChar = other.any isWordChar)
    (hkey : previous.any bindsKeyword = other.any bindsKeyword) : Clean other s s' := by
  refine ⟨(noCall_congr_previous hword s).1 h.noCall, ?_, h.noSuperglobal, h.noShell⟩
  rw [NoInclusion, ← found_congr_previous hkey]
  exact h.noInclusion

theorem clean_nil (previous : Option Char) : Clean previous [] [] := by
  refine ⟨fun name hn => found_nil (callsHere_nil (ne_nil_of_mem_forbidden name hn)), ?_, ?_, ?_⟩
  · exact found_nil (by decide)
  · intro name hn hi
    have := (superglobal_shape name hn).1
    rw [List.infix_nil.1 hi] at this
    exact absurd this (by decide)
  · exact List.not_mem_nil

theorem superglobal_isPrefixOf_nil {name : Text} (hn : name ∈ superglobals) :
    name.isPrefixOf [] = false := by
  have := (superglobal_shape name hn).1
  cases name with
  | nil => exact absurd this (by decide)
  | cons c name => rfl

theorem found_unbound {here : Text → Bool} (previous : Option Char) (s : Text) :
    Found here (fun _ => false) previous s ↔ Found here (fun _ => false) none s :=
  found_congr_previous (by cases previous <;> rfl) s

namespace Stops

variable {t : Text}

theorem noSuperglobal_append (h : Stops t) (a : Text) :
    NoSuperglobal (a ++ t) ↔ NoSuperglobal a ∧ NoSuperglobal t := by
  unfold NoSuperglobal
  rw [← forall₂_and]
  refine forall₂_congr fun name hn => ?_
  rw [infix_iff_found, infix_iff_found, infix_iff_found, ← not_or,
    found_append_left (fun u hu => superglobal_prefix_append hn h hu) (superglobal_isPrefixOf_nil hn),
    found_unbound (a.getLast?.or none)]

theorem clean_append {t' : Text} (h : Stops t) (h' : Stops t') (previous : Option Char)
    (a a' : Text) :
    Clean previous (a ++ t) (a' ++ t') ↔
      Clean previous a a' ∧ Clean (a.getLast?.or previous) t t' := by
  have hcall : NoCall previous (a ++ t) ↔
      NoCall previous a ∧ NoCall (a.getLast?.or previous) t := by
    unfold NoCall
    rw [← forall₂_and]
    refine forall₂_congr fun name hn => ?_
    rw [← not_or, found_append_left
      (fun u _ => callsHere_append (ascii_of_mem_forbidden name hn) h u)
      (callsHere_nil (ne_nil_of_mem_forbidden name hn))]
  have hinclusion : NoInclusion previous (a ++ t) ↔
      NoInclusion previous a ∧ NoInclusion (a.getLast?.or previous) t := by
    unfold NoInclusion
    rw [← not_or, found_append_left (fun u _ => ?_) (by decide)]
    rw [inclusionHere?_append h]
  have hglobal := h'.noSuperglobal_append a'
  constructor
  · rintro ⟨h₁, h₂, h₃, h₄⟩
    rw [List.mem_append, not_or] at h₄
    exact ⟨⟨(hcall.1 h₁).1, (hinclusion.1 h₂).1, (hglobal.1 h₃).1, h₄.1⟩,
      ⟨(hcall.1 h₁).2, (hinclusion.1 h₂).2, (hglobal.1 h₃).2, h₄.2⟩⟩
  · rintro ⟨⟨h₁, h₂, h₃, h₄⟩, ⟨k₁, k₂, k₃, k₄⟩⟩
    refine ⟨hcall.2 ⟨h₁, k₁⟩, hinclusion.2 ⟨h₂, k₂⟩, hglobal.2 ⟨h₃, k₃⟩, ?_⟩
    rw [List.mem_append, not_or]
    exact ⟨h₄, k₄⟩

end Stops

structure Inert (m : Text) : Prop where
  noName : ∀ name ∈ forbiddenFunctions, ∀ u, u ≠ [] → u <:+ m → ∀ b,
    Text.dropWord? name (u ++ b) = none
  noDollar : '$' ∉ m
  noShell : '\x60' ∉ m

namespace Inert

variable {m u : Text}

theorem inclusionHere?_eq (h : Inert m) (hu : u ≠ []) (hs : u <:+ m) (b : Text) :
    inclusionHere? (u ++ b) = none := by
  have hi := h.noName "include".toList (by decide +kernel) u hu hs b
  have hr := h.noName "require".toList (by decide +kernel) u hu hs b
  rw [inclusionHere?, inclusionWord?, hi, hr]

theorem superglobal_prefix_eq (h : Inert m) {name : Text} (hname : name ∈ superglobals)
    (hu : u ≠ []) (hs : u <:+ m) (b : Text) : name.isPrefixOf (u ++ b) = false := by
  obtain ⟨c, v, rfl⟩ := List.exists_cons_of_ne_nil hu
  have hc : c ≠ '$' := by
    rintro rfl
    exact h.noDollar (hs.mem List.mem_cons_self)
  have hhead := (superglobal_shape name hname).1
  cases name with
  | nil => simp at hhead
  | cons d name =>
    rw [List.head?_cons, Option.some_inj] at hhead
    subst hhead
    simp [List.isPrefixOf, Ne.symm hc]

theorem noSuperglobal_append (h : Inert m) (b : Text) :
    NoSuperglobal (m ++ b) ↔ NoSuperglobal b := by
  refine forall₂_congr fun name hn => ?_
  rw [infix_iff_found, infix_iff_found,
    found_append_right (fun u hu hs => h.superglobal_prefix_eq hn hu hs b), found_unbound]

theorem clean_append (h : Inert m) (previous : Option Char) (b b' : Text) :
    Clean previous (m ++ b) (m ++ b') ↔ Clean (m.getLast?.or previous) b b' := by
  have hcall : NoCall previous (m ++ b) ↔ NoCall (m.getLast?.or previous) b := by
    refine forall₂_congr fun name hn => ?_
    rw [found_append_right fun u hu hs => ?_]
    rw [callsHere, h.noName name hn u hu hs b]
  have hinclusion : NoInclusion previous (m ++ b) ↔ NoInclusion (m.getLast?.or previous) b := by
    unfold NoInclusion
    rw [found_append_right fun u hu hs => ?_]
    rw [h.inclusionHere?_eq hu hs b]
    rfl
  have hglobal := h.noSuperglobal_append b'
  constructor
  · rintro ⟨h₁, h₂, h₃, h₄⟩
    exact ⟨hcall.1 h₁, hinclusion.1 h₂, hglobal.1 h₃, fun hb => h₄ (List.mem_append_right m hb)⟩
  · rintro ⟨h₁, h₂, h₃, h₄⟩
    refine ⟨hcall.2 h₁, hinclusion.2 h₂, hglobal.2 h₃, ?_⟩
    rw [List.mem_append, not_or]
    exact ⟨h.noShell, h₄⟩

end Inert

/-- Text that keeps what stands before it apart from what stands behind it. -/
structure Barrier (m : Text) : Prop extends Inert m where
  ne_nil : m ≠ []
  stops : ∀ b, Stops (m ++ b)

namespace Barrier

variable {m : Text}

theorem clean_iff (h : Barrier m) (previous : Option Char) (a a' b b' : Text) :
    Clean previous (a ++ (m ++ b)) (a' ++ (m ++ b')) ↔
      Clean previous a a' ∧ Clean m.getLast? b b' := by
  rw [(h.stops b).clean_append (h.stops b'), h.toInert.clean_append,
    List.getLast?_eq_some_getLast h.ne_nil, Option.some_or]

theorem noSuperglobal_iff (h : Barrier m) (a b : Text) :
    NoSuperglobal (a ++ (m ++ b)) ↔ NoSuperglobal a ∧ NoSuperglobal b := by
  rw [(h.stops b).noSuperglobal_append, h.toInert.noSuperglobal_append]

end Barrier

end MarkupTemplate.Code
