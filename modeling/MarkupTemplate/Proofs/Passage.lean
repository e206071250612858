import MarkupTemplate.Proofs.CutShort
import MarkupTemplate.Proofs.ScanPrefix

/-!
# The way through a source

The places of a source at which a scan looks for something new are described without the scan. From one
such place the way leads over a character at which nothing begins, or over a whole construct: a block to
the first brace by which it holds as many closing braces as openings, a comment to its first closing
delimiter, a tag to its first closing bracket outside quotes. A scan counts the blocks that are open, and a
count that starts at some depth comes to nothing exactly at the end of the shortest text in which the
closing braces make up for the openings and for that depth.
-/

namespace MarkupTemplate

/-- A text from the opening of a block on in which each opening has its closing brace. -/
structure BlockText (t : Text) : Prop where
  opens : ['{', '@'] <+: t
  closes : t.count '}' = openings t

structure FirstBlock (s block : Text) : Prop where
  isPrefix : block <+: s
  complete : BlockText block
  shortest : ∀ t, t <+: s → BlockText t → block.length ≤ t.length

/-- The text of a tag before its closing bracket, which is the first one outside quotes. It begins behind
the character `previous`, inside `quote`. -/
structure TagBody (previous : Char) (quote : Option Char) (body : Text) : Prop where
  ends : quoteAfter previous quote body = none
  first : ∀ a b, body = a ++ '>' :: b → quoteAfter previous quote a ≠ none

/-- A construct begins at the head of a text. In the raw text of an element only its own closing tag
does. -/
def Construct.BeginsIn (mode : Scan.Mode) (s : Text) : Construct → Prop
  | block => ['{', '@'] <+: s
  | comment => mode = .content ∧ "<!--".toList <+: s
  | tag =>
    match mode with
    | .content => ['<'] <+: s ∧ ¬ "<!--".toList <+: s
    | .rawText name => ∃ w rest, s = '<' :: '/' :: (w ++ rest) ∧ Text.Spells name w ∧
        ∀ c ∈ rest.head?, isBlank c = true ∨ c = '/' ∨ c = '>'

namespace Scan

/-- The way from one place of a source to another, each given by the text from there on and the mode. -/
inductive Passes : Mode → Text → Mode → Text → Prop
  | here (mode : Mode) (s : Text) : Passes mode s mode s
  | character {mode last : Mode} {c : Char} {s ahead : Text}
      (hnone : ∀ construct : Construct, ¬ construct.BeginsIn mode (c :: s))
      (hrest : Passes mode s last ahead) : Passes mode (c :: s) last ahead
  | block {mode last : Mode} {block s ahead : Text} (hblock : FirstBlock (block ++ s) block)
      (hrest : Passes mode s last ahead) : Passes mode (block ++ s) last ahead
  | comment {last : Mode} {data s ahead : Text} (hdata : ¬ "-->".toList <:+: data ++ ['-', '-'])
      (hrest : Passes .content s last ahead) :
      Passes .content ("<!--".toList ++ (data ++ "-->".toList ++ s)) last ahead
  | tag {mode last : Mode} {body s ahead : Text}
      (hbegins : Construct.BeginsIn mode ('<' :: (body ++ '>' :: s)) .tag) (hbody : TagBody '<' none body)
      (hrest : Passes (modeAfter (.read ('<' :: (body ++ ['>'])))) s last ahead) :
      Passes mode ('<' :: (body ++ '>' :: s)) last ahead

theorem openings_cons_of_isPrefix {c : Char} {s t : Text} (hs : ∀ u, c = '{' → s = '@' :: u → False)
    (h : t <+: s) : openings (c :: t) = openings t := by
  apply openings_cons
  intro hc hhead
  obtain ⟨u, rfl⟩ := List.head?_eq_some_iff.1 hhead
  obtain ⟨rest, rfl⟩ := h
  exact hs (u ++ rest) hc rfl

theorem prefix_blockSpan (depth : Nat) (s : Text) : (blockSpan depth s).taken <+: s :=
  ⟨(blockSpan depth s).rest, taken_append_rest_blockSpan depth s⟩

theorem count_taken_blockSpan {depth : Nat} {s : Text} (h : (blockSpan depth s).closed = true) :
    (blockSpan depth s).taken.count '}' = depth + 1 + openings (blockSpan depth s).taken := by
  fun_induction blockSpan depth s with
  | case1 => cases h
  | case2 depth s ih =>
    have htaken := ih h
    simp only [Span.push, openings, List.count_cons, htaken]
    simp
    omega
  | case3 s _ => simp [openings]
  | case4 s depth _ ih =>
    have htaken := ih h
    have hopen : openings ('}' :: (blockSpan depth s).taken) = openings (blockSpan depth s).taken :=
      openings_cons (by simp)
    simp only [Span.push, hopen, List.count_cons_self, htaken]
    omega
  | case5 depth c s hs hc ih =>
    have htaken := ih h
    have hopen := openings_cons_of_isPrefix hs (prefix_blockSpan depth s)
    simp only [Span.push, hopen, List.count_cons_of_ne hc, htaken]

theorem exists_cons_of_count {depth : Nat} {t : Text} (h : t.count '}' = depth + 1 + openings t) :
    ∃ c u, t = c :: u := by
  apply List.exists_cons_of_ne_nil
  rintro rfl
  rw [List.count_nil] at h
  omega

theorem length_taken_blockSpan_le {depth : Nat} {s t : Text} (hpre : t <+: s)
    (hcount : t.count '}' = depth + 1 + openings t) :
    (blockSpan depth s).closed = true ∧ (blockSpan depth s).taken.length ≤ t.length := by
  fun_induction blockSpan depth s generalizing t with
  | case1 =>
    obtain ⟨d, t, rfl⟩ := exists_cons_of_count hcount
    exact absurd (List.prefix_nil.1 hpre) (List.cons_ne_nil d t)
  | case2 depth s ih =>
    obtain ⟨d, t, rfl⟩ := exists_cons_of_count hcount
    obtain ⟨rfl, htail⟩ := List.cons_prefix_cons.1 hpre
    cases t with
    -- a prefix may end between the brace and the at sign, and then it holds no closing brace
    | nil => simp [openings] at hcount
    | cons d t =>
      obtain ⟨rfl, hinside⟩ := List.cons_prefix_cons.1 htail
      have hinner : t.count '}' = depth + 1 + 1 + openings t := by
        simp only [openings, List.count_cons] at hcount
        simp at hcount
        omega
      obtain ⟨hclosed, hlength⟩ := ih hinside hinner
      refine ⟨hclosed, ?_⟩
      simp only [Span.push, List.length_cons]
      omega
  | case3 s _ =>
    obtain ⟨d, t, rfl⟩ := exists_cons_of_count hcount
    exact ⟨rfl, by simp⟩
  | case4 s depth _ ih =>
    obtain ⟨d, t, rfl⟩ := exists_cons_of_count hcount
    obtain ⟨rfl, htail⟩ := List.cons_prefix_cons.1 hpre
    have hopen : openings ('}' :: t) = openings t := openings_cons (by simp)
    have hinner : t.count '}' = depth + 1 + openings t := by
      rw [hopen, List.count_cons_self] at hcount
      omega
    obtain ⟨hclosed, hlength⟩ := ih htail hinner
    refine ⟨hclosed, ?_⟩
    simp only [Span.push, List.length_cons]
    omega
  | case5 depth c s hs hc ih =>
    obtain ⟨d, t, rfl⟩ := exists_cons_of_count hcount
    obtain ⟨rfl, htail⟩ := List.cons_prefix_cons.1 hpre
    have hinner : t.count '}' = depth + 1 + openings t := by
      rwa [openings_cons_of_isPrefix hs htail, List.count_cons_of_ne hc] at hcount
    obtain ⟨hclosed, hlength⟩ := ih htail hinner
    refine ⟨hclosed, ?_⟩
    simp only [Span.push, List.length_cons]
    omega

theorem blockText_cons_iff {t : Text} :
    BlockText ('{' :: '@' :: t) ↔ t.count '}' = 0 + 1 + openings t := by
  have hopen : ['{', '@'] <+: '{' :: '@' :: t := ⟨t, rfl⟩
  have hcount : ('{' :: '@' :: t).count '}' = t.count '}' := by
    simp
  have hopenings : openings ('{' :: '@' :: t) = 0 + 1 + openings t := by
    rw [openings]
    omega
  rw [← hcount, ← hopenings]
  exact ⟨fun h => h.closes, fun h => ⟨hopen, h⟩⟩

theorem closed_of_blockText {s t : Text} (hpre : t <+: '{' :: '@' :: s) (h : BlockText t) :
    (blockSpan 0 s).closed = true ∧ ('{' :: '@' :: (blockSpan 0 s).taken).length ≤ t.length := by
  obtain ⟨u, rfl⟩ := h.opens
  have hu : u <+: s := (List.prefix_append_right_inj ['{', '@']).1 hpre
  obtain ⟨hclosed, hlength⟩ := length_taken_blockSpan_le hu (blockText_cons_iff.1 h)
  exact ⟨hclosed, by simpa using hlength⟩

theorem firstBlock_of_closed {s : Text} (h : (blockSpan 0 s).closed = true) :
    FirstBlock ('{' :: '@' :: s) ('{' :: '@' :: (blockSpan 0 s).taken) where
  isPrefix := List.cons_prefix_cons.2 ⟨rfl, List.cons_prefix_cons.2 ⟨rfl, prefix_blockSpan 0 s⟩⟩
  complete := blockText_cons_iff.2 (count_taken_blockSpan h)
  shortest := fun _ hpre hblock => (closed_of_blockText hpre hblock).2

theorem blockSpan_open_iff_not_exists {s : Text} :
    (blockSpan 0 s).closed = false ↔ ¬ ∃ t, t <+: '{' :: '@' :: s ∧ BlockText t := by
  constructor
  · rintro hopen ⟨t, hpre, hblock⟩
    cases hopen.symm.trans (closed_of_blockText hpre hblock).1
  · intro hnone
    by_contra hclosed
    rw [Bool.not_eq_false] at hclosed
    have hfirst := firstBlock_of_closed hclosed
    exact hnone ⟨_, hfirst.isPrefix, hfirst.complete⟩

theorem rest_blockSpan_of_firstBlock {s block t : Text} (h : FirstBlock ('{' :: '@' :: s) block)
    (hsplit : '{' :: '@' :: s = block ++ t) : (blockSpan 0 s).rest = t := by
  have hspan := firstBlock_of_closed (closed_of_blockText h.isPrefix h.complete).1
  have hblock : block = '{' :: '@' :: (blockSpan 0 s).taken := by
    refine (List.prefix_of_prefix_length_le h.isPrefix hspan.isPrefix ?_).eq_of_length ?_
    · exact h.shortest _ hspan.isPrefix hspan.complete
    · exact Nat.le_antisymm (h.shortest _ hspan.isPrefix hspan.complete)
        (hspan.shortest _ h.isPrefix h.complete)
  have hrest := taken_append_rest_blockSpan 0 s
  rw [hblock, List.cons_append, List.cons_append, List.cons.injEq, List.cons.injEq] at hsplit
  exact List.append_cancel_left (hrest.trans hsplit.2.2)

theorem quoteAfter_cons (previous : Char) (quote : Option Char) (c : Char) (s : Text) :
    quoteAfter previous quote (c :: s) = quoteAfter c (quoteAfter previous quote [c]) s := by
  cases quote <;> rfl

theorem tagSpan_cons (previous : Char) (quote : Option Char) (c : Char) (s : Text) :
    tagSpan previous quote (c :: s) =
      if quote = none ∧ c = '>' then ⟨[c], s, true⟩
      else (tagSpan c (quoteAfter previous quote [c]) s).push c := by
  cases quote with
  | some q => simp [tagSpan, quoteAfter]
  | none =>
    by_cases hbracket : c = '>'
    · simp [tagSpan, hbracket]
    · have hopen : ¬ ((none : Option Char) = none ∧ c = '>') := fun h => hbracket h.2
      rw [tagSpan, if_neg hbracket, if_neg hopen]
      split_ifs with hquote <;> simp [quoteAfter, hquote]

theorem tagBody_cons_iff {previous : Char} {quote : Option Char} {c : Char} {body : Text} :
    TagBody previous quote (c :: body) ↔
      ¬ (quote = none ∧ c = '>') ∧ TagBody c (quoteAfter previous quote [c]) body := by
  have hfirst : (∀ a b, c :: body = a ++ '>' :: b → quoteAfter previous quote a ≠ none) ↔
      (c = '>' → quote ≠ none) ∧
        ∀ a b, body = a ++ '>' :: b → quoteAfter c (quoteAfter previous quote [c]) a ≠ none := by
    rw [forall_split_cons]
    simp only [← quoteAfter_cons]
    rfl
  constructor
  · rintro ⟨hends, h⟩
    rw [hfirst] at h
    rw [quoteAfter_cons] at hends
    exact ⟨fun hc => h.1 hc.2 hc.1, hends, h.2⟩
  · rintro ⟨hc, hends, h⟩
    refine ⟨?_, hfirst.2 ⟨fun hbracket hquote => hc ⟨hquote, hbracket⟩, h⟩⟩
    rw [quoteAfter_cons]
    exact hends

theorem tagSpan_of_body {previous : Char} {quote : Option Char} {body : Text}
    (h : TagBody previous quote body) (s : Text) :
    tagSpan previous quote (body ++ '>' :: s) = ⟨body ++ ['>'], s, true⟩ := by
  induction body generalizing previous quote with
  | nil => rw [List.nil_append, tagSpan_cons, if_pos ⟨h.ends, rfl⟩, List.nil_append]
  | cons c body ih =>
    obtain ⟨hc, hbody⟩ := tagBody_cons_iff.1 h
    rw [List.cons_append, tagSpan_cons, if_neg hc, ih hbody, Span.push, List.cons_append]

theorem exists_body_of_closed {previous : Char} {quote : Option Char} {s : Text}
    (h : (tagSpan previous quote s).closed = true) :
    ∃ body, (tagSpan previous quote s).taken = body ++ ['>'] ∧ TagBody previous quote body := by
  induction s generalizing previous quote with
  | nil => cases h
  | cons c s ih =>
    rw [tagSpan_cons] at h ⊢
    by_cases hc : quote = none ∧ c = '>'
    · rw [if_pos hc]
      exact ⟨[], by rw [hc.2]; rfl, hc.1, by simp⟩
    · rw [if_neg hc] at h ⊢
      obtain ⟨body, htaken, hbody⟩ := ih h
      exact ⟨c :: body, by rw [Span.push, htaken]; rfl, tagBody_cons_iff.2 ⟨hc, hbody⟩⟩

theorem beginsIn_of_interrupts {mode : Mode} {s : Text} (h : interrupts mode ('<' :: s) = true)
    (hcomment : ∀ t, s ≠ '!' :: '-' :: '-' :: t) : Construct.BeginsIn mode ('<' :: s) .tag := by
  cases mode with
  | content =>
    refine ⟨⟨s, rfl⟩, ?_⟩
    rintro ⟨t, ht⟩
    exact hcomment t (List.cons.inj ht).2.symm
  | rawText name => exact closesRawText_iff.1 h

theorem interrupts_of_beginsIn {mode : Mode} {s : Text} {construct : Construct}
    (h : construct.BeginsIn mode s) : interrupts mode s = true := by
  rw [interrupts_iff]
  cases construct with
  | block =>
    obtain ⟨t, rfl⟩ := h
    exact .inl ⟨t, rfl⟩
  | comment =>
    obtain ⟨rfl, t, rfl⟩ := h
    exact .inr ⟨rfl, fun name hname => by cases hname⟩
  | tag =>
    cases mode with
    | content =>
      obtain ⟨⟨t, rfl⟩, -⟩ := h
      exact .inr ⟨rfl, fun name hname => by cases hname⟩
    | rawText name =>
      obtain ⟨w, rest, rfl, hw⟩ := h
      refine .inr ⟨rfl, fun other hname => ?_⟩
      cases hname
      exact closesRawText_iff.2 ⟨w, rest, rfl, hw⟩

theorem exists_beginsIn_of_interrupts {mode : Mode} {c : Char} {s : Text}
    (h : interrupts mode (c :: s) = true) :
    ∃ construct : Construct, construct.BeginsIn mode (c :: s) := by
  rcases cases_of_interrupts h with ⟨rfl, t, rfl⟩ | rfl
  · exact ⟨.block, t, rfl⟩
  · by_cases hs : ∃ t, s = '!' :: '-' :: '-' :: t
    · obtain ⟨t, rfl⟩ := hs
      exact ⟨.comment, content_of_interrupts_comment h, t, rfl⟩
    · exact ⟨.tag, beginsIn_of_interrupts h fun t ht => hs ⟨t, ht⟩⟩

theorem not_comment_of_beginsIn {mode : Mode} {s : Text}
    (h : Construct.BeginsIn mode ('<' :: s) .tag) (t : Text) : s ≠ '!' :: '-' :: '-' :: t := by
  rintro rfl
  cases mode with
  | content => exact h.2 ⟨t, rfl⟩
  | rawText name =>
    obtain ⟨w, rest, hs, -⟩ := h
    cases hs

theorem Passes.trans {mode middle last : Mode} {s t ahead : Text} (h : Passes mode s middle t)
    (h' : Passes middle t last ahead) : Passes mode s last ahead := by
  induction h with
  | here mode s => exact h'
  | character hnone _ ih => exact .character hnone (ih h')
  | block hblock _ ih => exact .block hblock (ih h')
  | comment hdata _ ih => exact .comment hdata (ih h')
  | tag hbegins hbody _ ih => exact .tag hbegins hbody (ih h')

theorem passes_textRun (mode : Mode) (s : Text) : Passes mode s mode (textRun mode s).2 := by
  induction s with
  | nil => exact .here mode []
  | cons c s ih =>
    rw [textRun]
    split
    · exact .here mode _
    · next hnot => exact .character (fun _ hbegins => hnot (interrupts_of_beginsIn hbegins)) ih

theorem passes_tagStep {mode : Mode} {s : Text} (hbegins : Construct.BeginsIn mode ('<' :: s) .tag)
    (hclosed : (tagSpan '<' none s).closed = true) :
    Passes mode ('<' :: s) (tagStep s).mode (tagStep s).rest := by
  obtain ⟨body, htaken, hbody⟩ := exists_body_of_closed hclosed
  have hsplit : s = body ++ '>' :: (tagSpan '<' none s).rest := by
    have happend := taken_append_rest_tagSpan '<' none s
    rw [htaken, List.append_assoc] at happend
    exact happend.symm
  rw [tagStep, htaken]
  dsimp only
  generalize (tagSpan '<' none s).rest = rest at hsplit ⊢
  rw [hsplit] at hbegins ⊢
  exact .tag hbegins hbody (.here _ rest)

/-- A step that leaves nothing open goes from one place on the way to another. -/
theorem passes_step {mode : Mode} {c : Char} {s : Text} (h : (step mode c s).piece.cut = none) :
    Passes mode (c :: s) (step mode c s).mode (step mode c s).rest := by
  rcases step_cases mode c s with
    ⟨t, rfl, rfl, he⟩ | ⟨t, rfl, rfl, hi, he⟩ | ⟨rfl, hs, hi, he⟩ | ⟨hi, he⟩
  · rw [he] at h ⊢
    have hfirst := firstBlock_of_closed (closed_of_cut_eq_none h)
    rw [← source_append_blockStep mode t] at hfirst ⊢
    exact .block hfirst (.here mode _)
  · obtain rfl := content_of_interrupts_comment hi
    rw [he] at h ⊢
    unfold commentStep at h ⊢
    cases hcut : Text.cut? ['-', '-', '>'] t with
    | none => simp [hcut] at h
    | some found =>
      obtain ⟨data, rest⟩ := found
      rw [Text.append_of_cut? hcut]
      exact .comment (Text.not_infix_of_cut? (by decide) hcut) (.here .content rest)
  · rw [he] at h ⊢
    exact passes_tagStep (beginsIn_of_interrupts hi hs) (closed_of_cut_eq_none h)
  · rw [he]
    refine .character (fun construct hbegins => ?_) (passes_textRun mode s)
    rw [interrupts_of_beginsIn hbegins] at hi
    cases hi

theorem step_of_firstBlock {block s : Text} (h : FirstBlock (block ++ s) block) (mode : Mode) :
    ∃ c t, block ++ s = c :: t ∧ (step mode c t).rest = s ∧ (step mode c t).mode = mode := by
  obtain ⟨body, hbody⟩ := h.complete.opens
  have hsplit : '{' :: '@' :: (body ++ s) = block ++ s := by
    rw [← hbody]
    rfl
  rw [← hsplit] at h
  exact ⟨'{', '@' :: (body ++ s), hsplit.symm, rest_blockSpan_of_firstBlock h hsplit, rfl⟩

theorem step_of_tagBody {mode : Mode} {body s : Text}
    (hbegins : Construct.BeginsIn mode ('<' :: (body ++ '>' :: s)) .tag)
    (hbody : TagBody '<' none body) :
    (step mode '<' (body ++ '>' :: s)).rest = s ∧
      (step mode '<' (body ++ '>' :: s)).mode = modeAfter (.read ('<' :: (body ++ ['>']))) := by
  have htag := step_eq_tagStep (interrupts_of_beginsIn hbegins) (not_comment_of_beginsIn hbegins)
  rw [htag, tagStep, tagSpan_of_body hbody]
  exact ⟨rfl, rfl⟩

end Scan

end MarkupTemplate
