import MarkupTemplate.Code.Part
import MarkupTemplate.Proofs.Text

/-!
# Lexically closed code

Code is closed when it is put together from whole units: literals with both quotes, block comments
with both ends, line comments with their line feed, and characters that open none of these. What
follows closed code has no influence on how it is read, and it none on what follows. So the parts of a
concatenation are the parts of both, and stripping goes through.
-/

namespace MarkupTemplate.Code

/-- What can stand between two quotes: the quote itself only behind a backslash, and behind a backslash
any character. -/
inductive Quotable (quote : Char) : Text → Prop
  | nil : Quotable quote []
  | plain {c : Char} {s : Text} :
      c ≠ quote → c ≠ '\\' → Quotable quote s → Quotable quote (c :: s)
  | escaped {c : Char} {s : Text} : Quotable quote s → Quotable quote ('\\' :: c :: s)

inductive Whole : Text → Prop
  | double {content : Text} : Quotable '"' content → Whole ('"' :: content ++ ['"'])
  | single {content : Text} : Quotable '\'' content → Whole ('\'' :: content ++ ['\''])
  | block {content : Text} :
      ¬ ['*', '/'] <:+: content → Whole ('/' :: '*' :: content ++ ['*', '/'])
  | line {content : Text} : '\n' ∉ content → Whole ('/' :: '/' :: content ++ ['\n'])
  | char {c : Char} : c ≠ '"' → c ≠ '\'' → c ≠ '/' → Whole [c]

inductive Closed : Text → Prop
  | nil : Closed []
  | append {unit rest : Text} : Whole unit → Closed rest → Closed (unit ++ rest)

theorem Closed.trans {a b : Text} (ha : Closed a) (hb : Closed b) : Closed (a ++ b) := by
  induction ha with
  | nil => exact hb
  | append hu _ ih =>
    rw [List.append_assoc]
    exact .append hu ih

theorem Closed.of_forall {s : Text} (h : ∀ c ∈ s, c ≠ '"' ∧ c ≠ '\'' ∧ c ≠ '/') : Closed s := by
  induction s with
  | nil => exact .nil
  | cons c s ih =>
    obtain ⟨h₁, h₂, h₃⟩ := h c List.mem_cons_self
    have hs : Closed s := ih fun d hd => h d (List.mem_cons_of_mem c hd)
    exact .append (.char h₁ h₂ h₃) hs

theorem literal?_append {quote : Char} (hq : quote ≠ '\\') {content : Text}
    (h : Quotable quote content) (rest : Text) :
    Text.literal? quote (content ++ quote :: rest) = some (content, rest) := by
  induction h with
  | nil => rw [List.nil_append, Text.literal?_cons hq, if_pos rfl]
  | plain hc hb _ ih =>
    rw [List.cons_append, Text.literal?_cons hb, if_neg hc, ih]
    rfl
  | escaped _ ih =>
    rw [List.cons_append, List.cons_append, Text.literal?_escaped, ih]
    rfl

theorem parts_cons (c : Char) (s : Text) :
    parts (c :: s) = (part c s).1 :: parts (part c s).2 := by
  rw [parts]

theorem parts_nil : parts [] = [] := by
  rw [parts]

theorem part_double {content : Text} (h : Quotable '"' content) (rest : Text) :
    part '"' (content ++ '"' :: rest) = (.double content, rest) := by
  simp [part, literal?_append (by decide) h]

theorem part_single {content : Text} (h : Quotable '\'' content) (rest : Text) :
    part '\'' (content ++ '\'' :: rest) = (.single content, rest) := by
  simp [part, literal?_append (by decide) h]

theorem not_blockEnd_infix_concat {s : Text} (h : ¬ ['*', '/'] <:+: s) :
    ¬ ['*', '/'] <:+: s ++ ['*'] := by
  intro hi
  rcases List.infix_concat_iff.1 hi with hs | hi
  · obtain ⟨t, ht⟩ := hs
    have := congrArg List.getLast? ht
    simp at this
  · exact h hi

theorem part_block {content : Text} (h : ¬ ['*', '/'] <:+: content) (rest : Text) :
    part '/' ('*' :: (content ++ ['*', '/'] ++ rest)) = (.block content, rest) := by
  have hc : Text.cut? ['*', '/'] (content ++ ['*', '/'] ++ rest) = some (content, rest) :=
    Text.cut?_append (by decide) (not_blockEnd_infix_concat h) rest
  simp only [part, hc]

theorem part_line (s : Text) :
    part '/' ('/' :: s) = (.line (s.takeWhile (· != '\n')), s.dropWhile (· != '\n')) := rfl

theorem part_char {c : Char} (h₁ : c ≠ '"') (h₂ : c ≠ '\'') (h₃ : c ≠ '/') (s : Text) :
    part c s = (.other c, s) := by
  unfold part
  split
  · exact absurd rfl h₁
  · exact absurd rfl h₂
  · exact absurd rfl h₃
  · exact absurd rfl h₃
  · rfl

theorem parts_char {c : Char} (h₁ : c ≠ '"') (h₂ : c ≠ '\'') (h₃ : c ≠ '/') (s : Text) :
    parts (c :: s) = .other c :: parts s := by
  rw [parts_cons, part_char h₁ h₂ h₃]

theorem bne_lineFeed {content : Text} (h : '\n' ∉ content) :
    ∀ c ∈ content, (c != '\n') = true := by
  intro c hc
  rw [bne_iff_ne]
  rintro rfl
  exact h hc

theorem takeWhile_line {content : Text} (h : '\n' ∉ content) (rest : Text) :
    (content ++ '\n' :: rest).takeWhile (· != '\n') = content := by
  rw [List.takeWhile_append_of_pos (bne_lineFeed h)]
  simp

theorem dropWhile_line {content : Text} (h : '\n' ∉ content) (rest : Text) :
    (content ++ '\n' :: rest).dropWhile (· != '\n') = '\n' :: rest := by
  rw [List.dropWhile_append_of_pos (bne_lineFeed h)]
  simp

theorem part_wholeLine {content : Text} (h : '\n' ∉ content) (rest : Text) :
    part '/' ('/' :: (content ++ '\n' :: rest)) = (.line content, '\n' :: rest) := by
  rw [part_line, takeWhile_line h, dropWhile_line h]

theorem exists_parts_whole_append {unit : Text} (h : Whole unit) :
    ∃ ps, ∀ rest, parts (unit ++ rest) = ps ++ parts rest := by
  cases h with
  | @double content hc =>
    refine ⟨[.double content], fun rest => ?_⟩
    rw [List.append_assoc, List.cons_append, parts_cons, List.singleton_append, part_double hc]
    rfl
  | @single content hc =>
    refine ⟨[.single content], fun rest => ?_⟩
    rw [List.append_assoc, List.cons_append, parts_cons, List.singleton_append, part_single hc]
    rfl
  | @block content hc =>
    refine ⟨[.block content], fun rest => ?_⟩
    simp only [List.cons_append]
    rw [parts_cons, part_block hc]
    rfl
  | @line content hc =>
    refine ⟨[.line content, .other '\n'], fun rest => ?_⟩
    simp only [List.cons_append, List.append_assoc, List.nil_append]
    rw [parts_cons, part_wholeLine hc, parts_cons, part_char (by decide) (by decide) (by decide)]
  | @char c h₁ h₂ h₃ =>
    refine ⟨[.other c], fun rest => ?_⟩
    rw [List.singleton_append, parts_cons, part_char h₁ h₂ h₃]
    rfl

/-- The parts of a concatenation are the parts of both, where the first text is closed. -/
theorem parts_append {p : Text} (hp : Closed p) (rest : Text) :
    parts (p ++ rest) = parts p ++ parts rest := by
  have hps : ∃ ps, ∀ rest, parts (p ++ rest) = ps ++ parts rest := by
    induction hp with
    | nil => exact ⟨[], fun rest => rfl⟩
    | append hu _ ih =>
      obtain ⟨us, hus⟩ := exists_parts_whole_append hu
      obtain ⟨ps, hps⟩ := ih
      refine ⟨us ++ ps, fun rest => ?_⟩
      rw [List.append_assoc, hus, hps, List.append_assoc]
  obtain ⟨ps, hps⟩ := hps
  have hnil := hps []
  rw [List.append_nil, parts_nil, List.append_nil] at hnil
  rw [hps rest, hnil]

theorem strip_append {p : Text} (hp : Closed p) (keepDouble : Bool) (rest : Text) :
    strip keepDouble (p ++ rest) = strip keepDouble p ++ strip keepDouble rest := by
  rw [strip, parts_append hp, List.flatMap_append]
  rfl

theorem strip_double {content : Text} (h : Quotable '"' content) (keepDouble : Bool) :
    strip keepDouble ('"' :: content ++ ['"']) =
      if keepDouble then '"' :: content ++ ['"'] else ['"', '"'] := by
  rw [strip, List.cons_append, parts_cons, part_double h, parts_nil]
  exact List.append_nil _

theorem strip_single {content : Text} (h : Quotable '\'' content) (keepDouble : Bool) :
    strip keepDouble ('\'' :: content ++ ['\'']) = ['\'', '\''] := by
  rw [strip, List.cons_append, parts_cons, part_single h, parts_nil]
  rfl

theorem strip_block {content : Text} (h : ¬ ['*', '/'] <:+: content) (keepDouble : Bool) :
    strip keepDouble ('/' :: '*' :: content ++ ['*', '/']) = [] := by
  have hp := part_block h []
  rw [List.append_nil] at hp
  rw [strip, List.cons_append, List.cons_append, parts_cons, hp, parts_nil]
  rfl

theorem strip_line {content : Text} (h : '\n' ∉ content) (keepDouble : Bool) :
    strip keepDouble ('/' :: '/' :: content ++ ['\n']) = ['\n'] := by
  rw [strip, List.cons_append, List.cons_append, parts_cons, part_wholeLine h, parts_cons,
    part_char (by decide) (by decide) (by decide), parts_nil]
  rfl

theorem Whole.closed {unit : Text} (h : Whole unit) : Closed unit := by
  have := Closed.append h .nil
  rwa [List.append_nil] at this

theorem strip_eq_self {s : Text} (h : ∀ c ∈ s, c ≠ '"' ∧ c ≠ '\'' ∧ c ≠ '/') (keepDouble : Bool) :
    strip keepDouble s = s := by
  induction s with
  | nil => rw [strip, parts_nil, List.flatMap_nil]
  | cons c s ih =>
    obtain ⟨h₁, h₂, h₃⟩ := h c List.mem_cons_self
    have hs := ih fun d hd => h d (List.mem_cons_of_mem c hd)
    rw [strip] at hs ⊢
    rw [parts_cons, part_char h₁ h₂ h₃, List.flatMap_cons, hs]
    rfl

inductive Enclosure
  | double
  | single
  | block

namespace Enclosure

def opener : Enclosure → Text
  | double => ['"']
  | single => ['\'']
  | block => ['/', '*']

def closer : Enclosure → Text
  | double => ['"']
  | single => ['\'']
  | block => ['*', '/']

def read : Enclosure → Text → Option (Text × Text)
  | double => Text.literal? '"'
  | single => Text.literal? '\''
  | block => Text.cut? ['*', '/']

def wrap : Enclosure → Text → Part
  | double => .double
  | single => .single
  | block => .block

variable {d : Enclosure} {s content rest : Text}

theorem source_wrap (d : Enclosure) (content : Text) :
    (d.wrap content).source = d.opener ++ content ++ d.closer := by
  cases d <;> rfl

theorem append_of_read (h : d.read s = some (content, rest)) : s = content ++ d.closer ++ rest := by
  cases d with
  | double => simpa [closer] using Text.append_of_literal? h
  | single => simpa [closer] using Text.append_of_literal? h
  | block => exact Text.append_of_cut? h

theorem read_append_of_some (h : d.read s = some (content, rest)) (t : Text) :
    d.read (s ++ t) = some (content, rest ++ t) := by
  cases d with
  | double => exact Text.literal?_append_of_some (by decide) h t
  | single => exact Text.literal?_append_of_some (by decide) h t
  | block => exact Text.cut?_append_of_some (by decide) h t

theorem parts_opener_append (d : Enclosure) (s : Text) :
    parts (d.opener ++ s) =
      match d.read s with
      | some (content, rest) => d.wrap content :: parts rest
      | none => d.opener.map .other ++ parts s := by
  cases d with
  | double =>
    rw [opener, List.singleton_append, parts_cons, read]
    simp only [part]
    cases Text.literal? '"' s <;> rfl
  | single =>
    rw [opener, List.singleton_append, parts_cons, read]
    simp only [part]
    cases Text.literal? '\'' s <;> rfl
  | block =>
    rw [opener, List.cons_append, List.singleton_append, parts_cons, read]
    simp only [part]
    cases Text.cut? ['*', '/'] s with
    | some found => rfl
    | none =>
      dsimp only
      rw [parts_char (by decide) (by decide) (by decide)]
      rfl

end Enclosure

theorem parts_slash {s : Text} (h : ∀ c ∈ s.head?, c ≠ '*' ∧ c ≠ '/') :
    parts ('/' :: s) = .other '/' :: parts s := by
  have hp : part '/' s = (.other '/', s) := by
    unfold part
    split
    · next hc => exact absurd hc (by decide)
    · next hc => exact absurd hc (by decide)
    · exact absurd rfl (h '*' rfl).1
    · exact absurd rfl (h '/' rfl).2
    · rfl
  rw [parts_cons, hp]

theorem parts_line (s : Text) :
    parts ('/' :: '/' :: s) =
      .line (s.takeWhile (· != '\n')) :: parts (s.dropWhile (· != '\n')) := by
  rw [parts_cons, part_line]

end MarkupTemplate.Code
