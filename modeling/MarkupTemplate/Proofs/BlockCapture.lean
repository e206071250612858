import MarkupTemplate.Proofs.Partition
import MarkupTemplate.Proofs.Passage

/-!
# The extent of raw-code blocks

A raw-code block is opened where the way through a source comes to its first two characters. It ends at
the first closing brace by which there are as many closing braces as openings in it. Where there is none,
the block takes what is left of the source and is reported. Scanning goes on behind a block in the mode in
which the block was met.
-/

namespace MarkupTemplate

namespace Scan

def modeBehind (mode : Mode) : Lexeme → Mode
  | .text _ | .code _ => mode
  | .comment _ => .content
  | .tag _ tag => modeAfter tag

/-- The mode in which a scan stands when it has read `tokens`. -/
def modeAfterAll (mode : Mode) (tokens : List Token) : Mode :=
  tokens.foldl (fun mode token => modeBehind mode token.lexeme) mode

theorem mode_step (mode : Mode) (c : Char) (s : Text) :
    (step mode c s).mode = modeBehind mode (step mode c s).piece.lexeme := by
  rcases step_cases mode c s with ⟨t, -, -, he⟩ | ⟨t, -, -, -, he⟩ | ⟨-, -, -, he⟩ | ⟨-, he⟩
  · rw [he]
    rfl
  · rw [he, commentStep]
    split <;> rfl
  · rw [he]
    rfl
  · rw [he]
    rfl

theorem exists_rest_of_tokens {start : Nat} {mode : Mode} {s : Text} {before rest : List Token}
    (h : tokensFrom start (piecesFrom mode s) = before ++ rest) :
    ∃ read ahead, s = read ++ ahead ∧
      rest = tokensFrom (start + read.length) (piecesFrom (modeAfterAll mode before) ahead) ∧
      (rest ≠ [] → Passes mode s (modeAfterAll mode before) ahead) := by
  induction before generalizing start mode s with
  | nil => exact ⟨[], s, rfl, h.symm, fun _ => .here mode s⟩
  | cons first before ih =>
    cases s with
    | nil => simp [piecesFrom_nil, tokensFrom] at h
    | cons c s =>
      rw [piecesFrom_cons, tokensFrom, List.cons_append, List.cons.injEq] at h
      obtain ⟨rfl, htail⟩ := h
      have hmode : modeAfterAll (step mode c s).mode before =
          modeAfterAll mode (⟨(step mode c s).piece.lexeme, start⟩ :: before) := by
        rw [mode_step]
        rfl
      obtain ⟨read, ahead, hsplit, hrest, hpasses⟩ := ih htail
      rw [hmode] at hrest hpasses
      refine ⟨(step mode c s).piece.source ++ read, ahead, ?_, ?_, fun hne => ?_⟩
      · rw [List.append_assoc, ← hsplit, source_append_step]
      · rw [List.length_append, ← Nat.add_assoc, hrest]
      · -- a step that is cut short is the last one
        have hcomplete : (step mode c s).piece.cut = none := by
          by_contra hcut
          rw [rest_step_of_cut hcut, piecesFrom_nil] at htail
          exact hne (List.append_eq_nil_iff.1 htail.symm).2
        exact (passes_step hcomplete).trans (hpasses hne)

theorem place_of_tokenize {source : Text} {before after : List Token} {token : Token}
    (h : tokenize source = before ++ token :: after) :
    token :: after = tokensFrom token.position
        (piecesFrom (modeAfterAll .content before) (source.drop token.position)) ∧
      Passes .content source (modeAfterAll .content before) (source.drop token.position) := by
  obtain ⟨read, ahead, hsplit, hrest, hpasses⟩ := exists_rest_of_tokens h
  have hposition : token.position = 0 + read.length := by
    have hfirst : (tokensFrom (0 + read.length)
        (piecesFrom (modeAfterAll .content before) ahead))[0]? = some token := by
      rw [← hrest]
      rfl
    simpa using position_tokensFrom hfirst
  have hahead : source.drop token.position = ahead := by
    rw [hposition, Nat.zero_add, hsplit, List.drop_left]
  rw [hahead, hposition]
  exact ⟨hrest, hpasses (List.cons_ne_nil token after)⟩

theorem rest_of_tokenize {source : Text} {before after : List Token} {token : Token}
    (h : tokenize source = before ++ token :: after) :
    token :: after = tokensFrom token.position
      (piecesFrom (modeAfterAll .content before) (source.drop token.position)) :=
  (place_of_tokenize h).1

theorem exists_step_of_tokenize {source : Text} {before after : List Token} {token : Token}
    (h : tokenize source = before ++ token :: after) :
    ∃ c s, source.drop token.position = c :: s ∧
      token = ⟨(step (modeAfterAll .content before) c s).piece.lexeme, token.position⟩ ∧
      after = tokensFrom
        (token.position + (step (modeAfterAll .content before) c s).piece.source.length)
        (piecesFrom (step (modeAfterAll .content before) c s).mode
          (step (modeAfterAll .content before) c s).rest) := by
  have hrest := rest_of_tokenize h
  cases hahead : source.drop token.position with
  | nil =>
    rw [hahead, piecesFrom_nil] at hrest
    cases hrest
  | cons c s =>
    rw [hahead, piecesFrom_cons, tokensFrom, List.cons.injEq] at hrest
    exact ⟨c, s, rfl, hrest⟩

theorem step_block (mode : Mode) (s : Text) : step mode '{' ('@' :: s) = blockStep mode s := rfl

theorem isCode_step_iff (position : Nat) {mode : Mode} {c : Char} {s : Text} :
    Token.kind ⟨(step mode c s).piece.lexeme, position⟩ = .code ↔ ['{', '@'] <+: c :: s := by
  constructor
  · intro hkind
    rcases step_cases mode c s with ⟨t, rfl, rfl, -⟩ | ⟨t, -, -, -, he⟩ | ⟨-, -, -, he⟩ | ⟨-, he⟩
    · exact ⟨t, rfl⟩
    · rw [he, commentStep] at hkind
      split at hkind <;> cases hkind
    · rw [he] at hkind
      simp only [tagStep, Token.kind] at hkind
      split at hkind <;> cases hkind
    · rw [he] at hkind
      cases hkind
  · rintro ⟨t, ht⟩
    cases ht
    rfl

theorem isCode_iff {source : Text} {before after : List Token} {token : Token}
    (h : tokenize source = before ++ token :: after) :
    token.kind = .code ↔ ['{', '@'] <+: source.drop token.position := by
  obtain ⟨c, s, hahead, htoken, -⟩ := exists_step_of_tokenize h
  rw [hahead, htoken]
  exact isCode_step_iff _

theorem exists_block_of_token {source : Text} {before after : List Token} {token : Token}
    (h : tokenize source = before ++ token :: after) (hcode : token.kind = .code) :
    ∃ s, source.drop token.position = '{' :: '@' :: s ∧
      token.raw = '{' :: '@' :: (blockSpan 0 s).taken ∧
      after = tokensFrom (token.position + token.raw.length)
        (piecesFrom (modeAfterAll .content before) (blockSpan 0 s).rest) := by
  have hrest := rest_of_tokenize h
  obtain ⟨s, hs⟩ := (isCode_iff h).1 hcode
  have hahead : source.drop token.position = '{' :: '@' :: s := hs.symm
  rw [hahead, piecesFrom_cons, step_block, tokensFrom, List.cons.injEq] at hrest
  have hraw : token.raw = '{' :: '@' :: (blockSpan 0 s).taken := by
    rw [hrest.1]
    rfl
  refine ⟨s, hahead, hraw, ?_⟩
  rw [hrest.2, hraw]
  rfl

def CodeAt (left : Nat) (mode : Mode) (s : Text) : Prop :=
  ∀ start, ∃ token ∈ tokensFrom start (piecesFrom mode s),
    token.kind = .code ∧ token.position + left = start + s.length

theorem CodeAt.of_rest {left : Nat} {mode : Mode} {c : Char} {s : Text}
    (h : CodeAt left (step mode c s).mode (step mode c s).rest) : CodeAt left mode (c :: s) := by
  intro start
  obtain ⟨token, hmem, hcode, hposition⟩ := h (start + (step mode c s).piece.source.length)
  refine ⟨token, ?_, hcode, ?_⟩
  · rw [piecesFrom_cons, tokensFrom]
    exact List.mem_cons_of_mem _ hmem
  · rw [← source_append_step mode c s, List.length_append]
    omega

theorem CodeAt.character {left : Nat} {mode : Mode} {c : Char} {s : Text} (h : CodeAt left mode s)
    (hc : interrupts mode (c :: s) = false) : CodeAt left mode (c :: s) := by
  have hstep : step mode c s = textStep mode c s := by simp [step, hc]
  cases s with
  | nil => exact .of_rest (hstep ▸ h)
  | cons d s =>
    cases hd : interrupts mode (d :: s) with
    | true =>
      have hrun : textRun mode (d :: s) = ([], d :: s) := by simp [textRun, hd]
      apply CodeAt.of_rest
      rw [hstep, textStep, hrun]
      exact h
    | false =>
      have hrun : textRun mode (d :: s) = (d :: (textRun mode s).1, (textRun mode s).2) := by
        simp [textRun, hd]
      have hnext : step mode d s = textStep mode d s := by simp [step, hd]
      -- the character joins the run behind it, which is no block
      intro start
      obtain ⟨token, hmem, hcode, hposition⟩ := h (start + 1)
      rw [piecesFrom_cons, hnext, tokensFrom] at hmem
      rcases List.mem_cons.1 hmem with rfl | hmem
      · cases hcode
      · refine ⟨token, ?_, hcode, ?_⟩
        · rw [piecesFrom_cons, hstep, tokensFrom, textStep, hrun]
          refine List.mem_cons_of_mem _ ?_
          simpa [textStep, Nat.add_assoc, Nat.add_comm 1] using hmem
        · rw [List.length_cons]
          omega

theorem codeAt_of_passes {mode last : Mode} {s ahead : Text} (h : Passes mode s last ahead)
    (hopen : ['{', '@'] <+: ahead) : CodeAt ahead.length mode s := by
  induction h with
  | here mode s =>
    obtain ⟨t, rfl⟩ := hopen
    intro start
    refine ⟨⟨(blockStep mode t).piece.lexeme, start⟩, ?_, rfl, rfl⟩
    rw [List.cons_append, List.cons_append, piecesFrom_cons, List.nil_append, step_block, tokensFrom]
    exact List.mem_cons_self
  | @character mode _ c s _ hnone _ ih =>
    refine (ih hopen).character ?_
    by_contra hinterrupts
    rw [Bool.not_eq_false] at hinterrupts
    obtain ⟨construct, hbegins⟩ := exists_beginsIn_of_interrupts hinterrupts
    exact hnone construct hbegins
  | @block mode _ _ _ _ hblock _ ih =>
    obtain ⟨c, t, hsplit, hrest, hmode⟩ := step_of_firstBlock hblock mode
    rw [hsplit]
    apply CodeAt.of_rest
    rw [hrest, hmode]
    exact ih hopen
  | @comment _ data s _ hdata _ ih =>
    change CodeAt _ .content ('<' :: '!' :: '-' :: '-' :: (data ++ ['-', '-', '>'] ++ s))
    apply CodeAt.of_rest
    rw [step_comment hdata s]
    exact ih hopen
  | tag hbegins hbody _ ih =>
    obtain ⟨hrest, hmode⟩ := step_of_tagBody hbegins hbody
    apply CodeAt.of_rest
    rw [hrest, hmode]
    exact ih hopen

/-- The way through the source comes to a place where a block is opened. -/
def OpensBlock (source : Text) (position : Nat) : Prop :=
  ∃ mode, Passes .content source mode (source.drop position) ∧ ['{', '@'] <+: source.drop position

theorem opensBlock_iff {source : Text} {position : Nat} :
    OpensBlock source position ↔
      ∃ token ∈ tokenize source, token.kind = .code ∧ token.position = position := by
  constructor
  · rintro ⟨mode, hpasses, hopen⟩
    obtain ⟨token, hmem, hcode, hposition⟩ := codeAt_of_passes hpasses hopen 0
    have hlength := hopen.length_le
    rw [List.length_drop] at hposition hlength
    simp only [List.length_cons, List.length_nil] at hlength
    exact ⟨token, hmem, hcode, by omega⟩
  · rintro ⟨token, hmem, hcode, rfl⟩
    obtain ⟨before, after, h⟩ := List.append_of_mem hmem
    exact ⟨_, (place_of_tokenize h).2, (isCode_iff h).1 hcode⟩

theorem rest_of_block {source : Text} {before after : List Token} {token : Token}
    (h : tokenize source = before ++ token :: after) (hcode : token.kind = .code) :
    after = tokensFrom (token.position + token.raw.length)
      (piecesFrom (modeAfterAll .content before)
        (source.drop (token.position + token.raw.length))) := by
  obtain ⟨s, hahead, hraw, hafter⟩ := exists_block_of_token h hcode
  have hsplit : source.drop token.position = token.raw ++ (blockSpan 0 s).rest := by
    rw [hahead, hraw, List.cons_append, List.cons_append, taken_append_rest_blockSpan]
  have hbehind : source.drop (token.position + token.raw.length) = (blockSpan 0 s).rest := by
    rw [← List.drop_drop, hsplit, List.drop_left]
  rw [hbehind]
  exact hafter

def ReportedAt (construct : Construct) (position : Nat) (source : Text) : Prop :=
  ∃ d ∈ diagnostics source, d.code = construct.code ∧ d.position = some (position : Int)

theorem reportedAt_iff {construct : Construct} {position : Nat} {source : Text} :
    ReportedAt construct position source ↔ (construct, position) ∈ cuts source := by
  constructor
  · rintro ⟨d, hd, hcode, hposition⟩
    obtain ⟨⟨other, place⟩, hcut, rfl⟩ := List.mem_map.1 hd
    have hother : other = construct := code_injective hcode
    have hplace : place = position := by
      simpa [diagnostic] using hposition
    rwa [hother, hplace] at hcut
  · intro hcut
    exact ⟨_, List.mem_map_of_mem hcut, rfl, rfl⟩

theorem unfinished_block_iff {s : Text} :
    Construct.Unfinished .block s ↔ ['{', '@'] <+: s ∧ ¬ ∃ t, t <+: s ∧ BlockText t := by
  have hopen : ∀ body, (∀ a b, body = a ++ '}' :: b → a.count '}' < openings a) ↔
      (blockSpan 0 body).closed = false := by
    intro body
    simp [blockSpan_open_iff]
  constructor
  · rintro ⟨body, rfl, hbody⟩
    exact ⟨⟨body, rfl⟩, blockSpan_open_iff_not_exists.1 ((hopen body).1 hbody)⟩
  · rintro ⟨⟨body, rfl⟩, hnone⟩
    exact ⟨body, rfl, (hopen body).2 (blockSpan_open_iff_not_exists.2 hnone)⟩

theorem code_of_reportedAt {source : Text} {position : Nat} (h : ReportedAt .block position source) :
    ∃ token ∈ tokenize source, token.kind = .code ∧ token.position = position ∧
      ¬ ∃ t, t <+: source.drop position ∧ BlockText t := by
  rw [reportedAt_iff] at h
  obtain ⟨token, hlast, rfl, hcut⟩ := (mem_cutsFrom_iff .content source []).1 h
  have hcode : token.kind = .code := by
    simpa [Token.isOf] using hcut.isOf
  have hnone := (unfinished_block_iff.1 hcut.unfinished).2
  exact ⟨token, List.mem_of_getLast? hlast, hcode, rfl, hnone⟩

theorem reportedAt_of_cut {source : Text} {before after : List Token} {token : Token} {c : Char}
    {s : Text} {construct : Construct} (h : tokenize source = before ++ token :: after)
    (hahead : source.drop token.position = c :: s)
    (hcut : (step (modeAfterAll .content before) c s).piece.cut = some construct) :
    (tokenize source).getLast? = some token ∧ ReportedAt construct token.position source := by
  have hrest := rest_of_tokenize h
  rw [hahead, piecesFrom_cons, tokensFrom, List.cons.injEq] at hrest
  obtain ⟨htoken, hafter⟩ := hrest
  have hend : (step (modeAfterAll .content before) c s).rest = [] :=
    rest_step_of_cut (by rw [hcut]; exact Option.some_ne_none construct)
  have hlast : (tokenize source).getLast? = some token := by
    rw [hend, piecesFrom_nil] at hafter
    rw [h, hafter, tokensFrom, List.getLast?_concat]
  refine ⟨hlast, ?_⟩
  rw [step_cut_iff token.position, ← htoken, ← hahead] at hcut
  rw [reportedAt_iff]
  exact (mem_cutsFrom_iff .content source []).2 ⟨token, hlast, rfl, hcut.1, hcut.2⟩

theorem reportedAt_of_open {source : Text} {before after : List Token} {token : Token}
    (h : tokenize source = before ++ token :: after) (hcode : token.kind = .code)
    (hnone : ¬ ∃ t, t <+: source.drop token.position ∧ BlockText t) :
    ReportedAt .block token.position source ∧ token.raw = source.drop token.position := by
  obtain ⟨s, hahead, hraw, -⟩ := exists_block_of_token h hcode
  have hopen : (blockSpan 0 s).closed = false := by
    rw [blockSpan_open_iff_not_exists, ← hahead]
    exact hnone
  have htaken : (blockSpan 0 s).taken = s := by
    have hsplit := taken_append_rest_blockSpan 0 s
    rwa [rest_blockSpan_of_open hopen, List.append_nil] at hsplit
  have hcut : (step (modeAfterAll .content before) '{' ('@' :: s)).piece.cut = some .block := by
    rw [step_block]
    simp [blockStep, Span.cut, hopen]
  refine ⟨(reportedAt_of_cut h hahead hcut).2, ?_⟩
  rw [hraw, htaken, hahead]

/-- How the raw-code blocks of a source are captured. Where one is opened there is a token with the
shortest block, or with what is left of the source where no block is complete, and then that is reported.
A block is met and left in the same mode. -/
structure CapturesBlocks (source : Text) : Prop where
  opened : ∀ token ∈ tokenize source,
    token.kind = .code ↔ ['{', '@'] <+: source.drop token.position
  found : ∀ position, OpensBlock source position ↔
    ∃ token ∈ tokenize source, token.kind = .code ∧ token.position = position
  captured : ∀ token ∈ tokenize source, token.kind = .code →
    ¬ ReportedAt .block token.position source →
    FirstBlock (source.drop token.position) token.raw
  reported : ∀ position, ReportedAt .block position source ↔
    OpensBlock source position ∧ ¬ ∃ t, t <+: source.drop position ∧ BlockText t
  remaining : ∀ token ∈ tokenize source, token.kind = .code →
    ReportedAt .block token.position source → token.raw = source.drop token.position
  resumed : ∀ before token after, tokenize source = before ++ token :: after → token.kind = .code →
    Passes .content source (modeAfterAll .content before) (source.drop token.position) ∧
    token :: after = tokensFrom token.position
      (piecesFrom (modeAfterAll .content before) (source.drop token.position)) ∧
    after = tokensFrom (token.position + token.raw.length)
      (piecesFrom (modeAfterAll .content before)
        (source.drop (token.position + token.raw.length)))

end Scan

/-- Every raw-code block is captured to the brace that closes it, in ordinary content and in raw text. -/
theorem tokenize_capturesBlocks (source : Text) : Scan.CapturesBlocks source := by
  refine ⟨?_, fun _ => Scan.opensBlock_iff, ?_, ?_, ?_, ?_⟩
  · intro token htoken
    obtain ⟨before, after, h⟩ := List.append_of_mem htoken
    exact Scan.isCode_iff h
  · intro token htoken hcode hcomplete
    obtain ⟨before, after, h⟩ := List.append_of_mem htoken
    obtain ⟨s, hahead, hraw, -⟩ := Scan.exists_block_of_token h hcode
    rw [hahead, hraw]
    apply Scan.firstBlock_of_closed
    by_contra hopen
    rw [Bool.not_eq_true, Scan.blockSpan_open_iff_not_exists, ← hahead] at hopen
    exact hcomplete (Scan.reportedAt_of_open h hcode hopen).1
  · intro position
    rw [Scan.opensBlock_iff]
    constructor
    · intro hreported
      obtain ⟨token, htoken, hcode, hposition, hnone⟩ := Scan.code_of_reportedAt hreported
      exact ⟨⟨token, htoken, hcode, hposition⟩, hnone⟩
    · rintro ⟨⟨token, htoken, hcode, rfl⟩, hnone⟩
      obtain ⟨before, after, h⟩ := List.append_of_mem htoken
      exact (Scan.reportedAt_of_open h hcode hnone).1
  · intro token htoken hcode hreported
    obtain ⟨before, after, h⟩ := List.append_of_mem htoken
    obtain ⟨-, -, -, -, hnone⟩ := Scan.code_of_reportedAt hreported
    exact (Scan.reportedAt_of_open h hcode hnone).2
  · intro before token after h hcode
    obtain ⟨hrest, hpasses⟩ := Scan.place_of_tokenize h
    exact ⟨hpasses, hrest, Scan.rest_of_block h hcode⟩

example : (tokenize "<style>a\x7b@ \x7b@ \x7d<p> \x7d<b></style>".toList).map Token.raw =
    ["<style>".toList, ['a'], "\x7b@ \x7b@ \x7d<p> \x7d".toList, "<b>".toList, "</style>".toList] := by
  decide +kernel

end MarkupTemplate
