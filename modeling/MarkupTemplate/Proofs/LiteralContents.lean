import MarkupTemplate.Proofs.CodeCheck
import MarkupTemplate.Proofs.CodeParts

/-!
# Contents of literals and comments

Stripping reads a complete literal or block comment behind closed code as one unit, whatever stands in it
and whatever follows, so nothing of its content reaches the check. The one exception is made on purpose:
double-quoted literals are kept for the search for superglobals. A superglobal holds no quote, so it is
found in the literal itself or outside it, and a literal that holds none is as good as any other.
-/

namespace MarkupTemplate.Code

namespace Enclosure

def Admits : Enclosure → Text → Prop
  | double, content => Quotable '"' content
  | single, content => Quotable '\'' content
  | block, content => ¬ ['*', '/'] <:+: content

def Complete (d : Enclosure) (x : Text) : Prop :=
  ∃ content, d.Admits content ∧ x = d.opener ++ content ++ d.closer

variable {d : Enclosure} {x y p s : Text}

theorem Complete.closed (h : d.Complete x) : Closed x := by
  obtain ⟨content, hc, rfl⟩ := h
  cases d with
  | double => exact (Whole.double hc).closed
  | single => exact (Whole.single hc).closed
  | block => exact (Whole.block hc).closed

theorem Complete.strip_eq (hx : d.Complete x) (hy : d.Complete y) {keepDouble : Bool}
    (hkeep : d ≠ double ∨ keepDouble = false) : strip keepDouble x = strip keepDouble y := by
  obtain ⟨content, hc, rfl⟩ := hx
  obtain ⟨content', hc', rfl⟩ := hy
  cases d with
  | double =>
    obtain rfl : keepDouble = false := hkeep.resolve_left (absurd rfl)
    exact (strip_double hc false).trans (strip_double hc' false).symm
  | single => exact (strip_single hc keepDouble).trans (strip_single hc' keepDouble).symm
  | block => exact (strip_block hc keepDouble).trans (strip_block hc' keepDouble).symm

theorem Complete.strip_append (hp : Closed p) (hx : d.Complete x) (keepDouble : Bool) (s : Text) :
    strip keepDouble (p ++ x ++ s) = strip keepDouble p ++ strip keepDouble x ++ strip keepDouble s := by
  rw [Code.strip_append (hp.trans hx.closed), Code.strip_append hp]

end Enclosure

theorem violation?_congr {a b : Text} (hclean : strip false a = strip false b)
    (hglobal : ∀ name ∈ superglobals, name <:+: strip true a ↔ name <:+: strip true b) :
    violation? a = violation? b := by
  have hfind : superglobals.find? (Text.occursIn · (strip true a)) =
      superglobals.find? (Text.occursIn · (strip true b)) := by
    refine List.find?_congr fun name hname => ?_
    rw [Bool.eq_iff_iff, Text.occursIn_iff, Text.occursIn_iff, hglobal name hname]
  rw [violation?, violation?, hclean, hfind]

theorem quote_not_mem_superglobal : ∀ name ∈ superglobals, '"' ∉ name := by
  decide +kernel

theorem superglobal_infix_iff {name x : Text} (hname : name ∈ superglobals)
    (hx : Enclosure.double.Complete x) (hfree : ¬ name <:+: x) (a b : Text) :
    name <:+: a ++ x ++ b ↔ name <:+: a ∨ name <:+: b := by
  obtain ⟨content, -, rfl⟩ := hx
  have hquote := quote_not_mem_superglobal name hname
  constructor
  · intro h
    have hsplit : name <:+: a ++ '"' :: (content ++ '"' :: b) := by
      simpa [Enclosure.opener, Enclosure.closer] using h
    rcases Text.infix_of_infix_append_cons hquote hsplit with ha | hrest
    · exact .inl ha
    · rcases Text.infix_of_infix_append_cons hquote hrest with hcontent | hb
      · exact absurd (hcontent.trans (List.infix_append _ content _)) hfree
      · exact .inr hb
  · rintro (ha | hb)
    · exact (ha.trans (List.prefix_append a _).isInfix).trans (List.prefix_append _ b).isInfix
    · exact hb.trans (List.suffix_append _ b).isInfix

/-- What the check says of code in which a literal or comment stands behind the closed code `p`: another
of its kind would do, apart from the superglobals that a double-quoted literal may hold. -/
structure IgnoresContents (p s : Text) : Prop where
  strip : ∀ (d : Enclosure) (x : Text), d.Complete x → ∀ keepDouble,
    strip keepDouble (p ++ x ++ s) = strip keepDouble p ++ strip keepDouble x ++ strip keepDouble s
  violation : ∀ (d : Enclosure) (x y : Text), d.Complete x → d.Complete y →
    (d = .double → NoSuperglobal x ∧ NoSuperglobal y) →
    violation? (p ++ x ++ s) = violation? (p ++ y ++ s)

/-- The contents of literals and comments behind closed code have no influence on the check. -/
theorem ignoresContents {p : Text} (hp : Closed p) (s : Text) : IgnoresContents p s := by
  refine ⟨fun d x hx keepDouble => hx.strip_append hp keepDouble s, fun d x y hx hy hfree => ?_⟩
  refine violation?_congr ?_ fun name hname => ?_
  · rw [hx.strip_append hp, hy.strip_append hp, hx.strip_eq hy (.inr rfl)]
  · rw [hx.strip_append hp, hy.strip_append hp]
    by_cases hd : d = .double
    · subst hd
      obtain ⟨hfx, hfy⟩ := hfree rfl
      have hkept : ∀ z, Enclosure.double.Complete z → Code.strip true z = z := by
        rintro z ⟨content, hc, rfl⟩
        exact strip_double hc true
      rw [hkept x hx, hkept y hy, superglobal_infix_iff hname hx (hfx name hname),
        superglobal_infix_iff hname hy (hfy name hname)]
    · rw [hx.strip_eq hy (.inl hd)]

def quoteInComment : Text :=
  "f(/* ' */".toList

def openersInLiteral : Text :=
  "\"/*'\"".toList

theorem ignoresContents_openersInLiteral :
    Closed quoteInComment ∧
      violation? (quoteInComment ++ ['"', '"'] ++ "); system ('".toList) =
        some (.call "system".toList) ∧
      violation? (quoteInComment ++ openersInLiteral ++ "); system ('".toList) =
        some (.call "system".toList) := by
  have hcomment : Whole "/* ' */".toList := .block (by decide : ¬ ['*', '/'] <:+: " ' ".toList)
  have hp : Closed quoteInComment :=
    (Closed.of_forall (s := "f(".toList) (Text.forall_of_all (by decide))).trans hcomment.closed
  have hempty : Enclosure.double.Complete ['"', '"'] := ⟨[], .nil, rfl⟩
  have hfull : Enclosure.double.Complete openersInLiteral :=
    ⟨['/', '*', '\''], .plain (by decide) (by decide) (.plain (by decide) (by decide)
      (.plain (by decide) (by decide) .nil)), rfl⟩
  have hfree : NoSuperglobal ['"', '"'] ∧ NoSuperglobal openersInLiteral := by
    unfold NoSuperglobal
    decide +kernel
  have hsame := (ignoresContents hp "); system ('".toList).violation .double _ _ hempty hfull
    fun _ => hfree
  have hverdict : violation? (quoteInComment ++ ['"', '"'] ++ "); system ('".toList) =
      some (.call "system".toList) := by
    decide +kernel
  exact ⟨hp, hverdict, hsame ▸ hverdict⟩

end MarkupTemplate.Code
