import MarkupTemplate.Proofs.CodeGap

/-!
# Checked code in context

Code is checked alone and then written between other texts. An opener and a closer leave the verdict as
it is: nothing begins in them, nothing is completed by them, and what the code leaves open they do not
close.
-/

namespace MarkupTemplate.Code

theorem dropWord?_cons_of_not_word {name : Text} (hname : name ∈ forbiddenFunctions) {c : Char}
    (hc : isWordChar c = false) (s : Text) : Text.dropWord? name (c :: s) = none := by
  have hascii := ascii_of_mem_forbidden name hname
  cases name with
  | nil => exact absurd rfl (ne_nil_of_mem_forbidden [] hname)
  | cons p name =>
    rw [Text.dropWord?, if_neg]
    intro hf
    rw [Text.isWordChar_of_isFormOf (hascii p List.mem_cons_self) hf] at hc
    exact Bool.false_ne_true hc.symm

theorem Inert.of_forall {m : Text}
    (h : ∀ c ∈ m, isWordChar c = false ∧ c ≠ '$' ∧ c ≠ '\x60') : Inert m := by
  refine ⟨fun name hn u hu hs b => ?_, fun hm => (h _ hm).2.1 rfl, fun hm => (h _ hm).2.2 rfl⟩
  obtain ⟨c, u, rfl⟩ := List.exists_cons_of_ne_nil hu
  exact dropWord?_cons_of_not_word hn (h c (hs.mem List.mem_cons_self)).1 _

def differs : Text → Text → Bool
  | p :: name, c :: u => !isFormOf p c || differs name u
  | _, _ => false

theorem dropWord?_of_differs {name u : Text} (h : differs name u = true) (b : Text) :
    Text.dropWord? name (u ++ b) = none := by
  induction name generalizing u with
  | nil => exact absurd h Bool.false_ne_true
  | cons p name ih =>
    cases u with
    | nil => exact absurd h Bool.false_ne_true
    | cons c u =>
      rw [List.cons_append, Text.dropWord?]
      split
      · next hf =>
        rw [differs, hf, Bool.not_true, Bool.false_or] at h
        rw [ih h]
        rfl
      · rfl

def isInert (m : Text) : Bool :=
  (m.tails.all fun u => u.isEmpty || forbiddenFunctions.all (differs · u)) &&
    !m.contains '$' && !m.contains '\x60'

theorem Inert.of_isInert {m : Text} (h : isInert m = true) : Inert m := by
  simp only [isInert, Bool.and_eq_true, Bool.not_eq_true', List.all_eq_true, Bool.or_eq_true,
    List.isEmpty_iff, List.contains_eq_mem, decide_eq_false_iff_not] at h
  obtain ⟨⟨hnames, hdollar⟩, hshell⟩ := h
  refine ⟨fun name hn u hu hs b => ?_, hdollar, hshell⟩
  have hu' := (hnames u ((List.mem_tails u m).2 hs)).resolve_left hu
  exact dropWord?_of_differs (hu' name hn) b

structure Opener (m : Text) : Prop extends Inert m where
  plain : ∀ c ∈ m, c ≠ '"' ∧ c ≠ '\'' ∧ c ≠ '/'
  unbound : m.getLast?.any bindsKeyword = false

theorem isWordChar_of_bindsKeyword {c : Char} (h : bindsKeyword c = false) :
    isWordChar c = false := by
  simp only [bindsKeyword, Bool.or_eq_false_iff] at h
  exact h.1.1.1

theorem isWordChar_of_unbound {previous : Option Char} (h : previous.any bindsKeyword = false) :
    previous.any isWordChar = false := by
  cases previous with
  | none => rfl
  | some c => exact isWordChar_of_bindsKeyword h

theorem Opener.isSafe_append {m : Text} (h : Opener m) (code : Text) :
    isSafe (m ++ code) = isSafe code := by
  rw [Bool.eq_iff_iff, isSafe_iff, isSafe_iff]
  have hstrip : ∀ keepDouble, strip keepDouble (m ++ code) = m ++ strip keepDouble code := by
    intro keepDouble
    rw [strip_append (.of_forall h.plain), strip_eq_self h.plain]
  rw [hstrip, hstrip, h.toInert.clean_append, Option.or_none]
  exact ⟨fun hc => hc.congr_previous (isWordChar_of_unbound h.unbound) h.unbound,
    fun hc => hc.congr_previous (isWordChar_of_unbound h.unbound).symm h.unbound.symm⟩

def Closer (m : Text) : Prop :=
  ∀ c ∈ m, Neutral c ∧ isWordChar c = false ∧ c ≠ '(' ∧ c ≠ '$' ∧ c ≠ '\x60'

theorem Closer.inert {m : Text} (h : Closer m) : Inert m :=
  .of_forall fun c hc => ⟨(h c hc).2.1, (h c hc).2.2.2.1, (h c hc).2.2.2.2⟩

theorem Closer.stops {m : Text} (h : Closer m) : Stops m := by
  refine ⟨fun c hc => ?_, fun c hc => ?_⟩
  · obtain ⟨-, hw, -, hd, -⟩ := h c (List.mem_of_mem_head? hc)
    exact ⟨hw, hd⟩
  · have hm : c ∈ m := (List.dropWhile_sublist _).mem (List.mem_of_mem_head? hc)
    obtain ⟨⟨hdouble, hsingle, -⟩, -, hp, hd, -⟩ := h c hm
    exact ⟨hp, hsingle, hdouble, hd⟩

theorem exists_strip_append {m : Text} (h : ∀ c ∈ m, Neutral c) (code : Text) :
    ∃ t, t <:+ m ∧ ∀ keepDouble, strip keepDouble (code ++ m) = strip keepDouble code ++ t := by
  have hm : Follows [] m := by
    have hg : Gap [] m := ⟨h, .inr rfl⟩
    simpa using hg.follows
  have hnil : Follows [] [] := follows_dropLine []
  have hself : ∀ {s : Text}, (∀ c ∈ s, Neutral c) → ∀ keepDouble, strip keepDouble s = s :=
    fun hs => strip_eq_self fun c hc => (hs c hc).plain
  cases place code [] with
  | code ps _ hparts =>
    refine ⟨m, List.suffix_rfl, fun keepDouble => ?_⟩
    have hcode := hparts [] hnil
    rw [List.append_nil, parts_nil, List.append_nil] at hcode
    rw [strip, hparts m hm, strip, hcode, List.flatMap_append]
    exact congrArg _ (hself h keepDouble)
  | enclosed ps d x y rest _ hread _ => cases d <;> exact absurd hread.symm (Option.some_ne_none _)
  | line ps x _ hparts =>
    refine ⟨m.dropWhile (· != '\n'), List.dropWhile_suffix _, fun keepDouble => ?_⟩
    have hcode := hparts [] hnil
    rw [List.append_nil, List.dropWhile_nil, parts_nil] at hcode
    rw [strip, hparts m hm, strip, hcode, List.flatMap_append, List.flatMap_append,
      List.append_assoc]
    refine congrArg _ ?_
    exact hself (fun c hc => h c ((List.dropWhile_sublist _).mem hc)) keepDouble

theorem Closer.isSafe_append {m : Text} (h : Closer m) (code : Text) :
    isSafe (code ++ m) = isSafe code := by
  rw [Bool.eq_iff_iff, isSafe_iff, isSafe_iff]
  obtain ⟨t, hsuffix, hstrip⟩ := exists_strip_append (fun c hc => (h c hc).1) code
  have ht : Closer t := fun c hc => h c (hsuffix.mem hc)
  have hclean : ∀ previous, Clean previous t t := by
    intro previous
    have := ht.inert.clean_append previous [] []
    rw [List.append_nil] at this
    exact this.2 (clean_nil _)
  rw [hstrip, hstrip, ht.stops.clean_append ht.stops]
  exact and_iff_left (hclean _)

theorem blank_spec {c : Char} (h : isBlank c = true) :
    Neutral c ∧ bindsKeyword c = false ∧ c ≠ '(' ∧ c ≠ '$' ∧ c ≠ '\x60' := by
  have hall : ∀ n ∈ Text.blankCodes, Neutral (Char.ofNat n) ∧ bindsKeyword (Char.ofNat n) = false ∧
      Char.ofNat n ≠ '(' ∧ Char.ofNat n ≠ '$' ∧ Char.ofNat n ≠ '\x60' := by
    decide +kernel
  have := hall c.toNat (Text.toNat_mem_blankCodes h)
  rwa [Char.ofNat_toNat] at this

theorem closer_of_blanks {m : Text} (h : m.all isBlank = true) : Closer m := by
  intro c hc
  obtain ⟨hn, hk, hrest⟩ := blank_spec (List.all_eq_true.1 h c hc)
  exact ⟨hn, isWordChar_of_bindsKeyword hk, hrest⟩

theorem opener_of_blanks {m : Text} (h : m.all isBlank = true) : Opener m := by
  refine ⟨(closer_of_blanks h).inert, fun c hc => ?_, ?_⟩
  · exact (blank_spec (List.all_eq_true.1 h c hc)).1.plain
  · cases hl : m.getLast? with
    | none => rfl
    | some c => exact (blank_spec (List.all_eq_true.1 h c (List.mem_of_getLast? hl))).2.1

theorem isSafe_trim (code : Text) : isSafe (Text.trim code) = isSafe code := by
  obtain ⟨before, after, hb, ha, hs⟩ := Text.exists_trim code
  conv_rhs => rw [hs]
  rw [(closer_of_blanks ha).isSafe_append, (opener_of_blanks hb).isSafe_append]

end MarkupTemplate.Code
