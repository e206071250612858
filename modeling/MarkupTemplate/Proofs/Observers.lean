import MarkupTemplate.Proofs.CutShort
import MarkupTemplate.Proofs.Event
import MarkupTemplate.Proofs.Outcome
import MarkupTemplate.Template

/-!
# Strict mode and the collection of diagnostics

Strict mode asks whether the source leaves something open, and where it does not it has no part in the
compilation. Collecting keeps diagnostics beside the tree: a builder that collects does to the tree what
one that does not would do. The diagnostics of the scanner and those of the builder have different codes,
so both can be told from the collected list.
-/

namespace MarkupTemplate

namespace Diagnostic

def isLexical (d : Diagnostic) : Bool :=
  [Construct.tag, .comment, .block].any fun construct => d.code == construct.code

end Diagnostic

namespace Builder

theorem add_quiet (builder : Builder) (token : Token) :
    builder.quiet.add token = (builder.add token).quiet := by
  obtain ⟨lexeme, position⟩ := token
  cases lexeme with
  | text data => exact (quiet_append builder _).symm
  | comment data => exact (quiet_append builder _).symm
  | code raw => exact (quiet_append builder _).symm
  | tag raw tag =>
    simp only [add, addTag]
    split_ifs
    · exact (quiet_append builder _).symm
    · rfl
    · exact (quiet_close builder _ _ _).symm
    · exact (quiet_append builder _).symm
    · rfl

theorem addAll_quiet (builder : Builder) (tokens : List Token) :
    builder.quiet.addAll tokens = (builder.addAll tokens).quiet := by
  induction tokens generalizing builder with
  | nil => rfl
  | cons token tokens ih =>
    simp only [addAll, List.foldl_cons, add_quiet] at ih ⊢
    exact ih (builder.add token)

theorem finish_quiet (builder : Builder) : builder.quiet.finish = builder.finish.quiet := by
  have hpath : builder.quiet.path = builder.path := rfl
  simp [finish, noteAll_quiet, quiet_leaveTimes, quiet_noteAll, hpath]

theorem quiet_build (collect : Bool) (tokens : List Token) :
    (build collect tokens).quiet = build false tokens := by
  have hstart : (start collect).quiet = start false := rfl
  simp only [build, ← finish_quiet, ← addAll_quiet, hstart]

theorem roots_build (collect : Bool) (tokens : List Token) :
    (build collect tokens).roots = documentOf tokens := by
  have h := congrArg roots (quiet_build collect tokens)
  exact h

theorem diagnostics_build_false (tokens : List Token) : (build false tokens).diagnostics = [] :=
  (congrArg diagnostics (quiet_build false tokens)).symm

def Structural (builder : Builder) : Prop :=
  ∀ d ∈ builder.diagnostics, d.isLexical = false

theorem Structural.note {builder : Builder} (h : builder.Structural) {d : Diagnostic}
    (hd : d.isLexical = false) : (builder.note d).Structural := by
  intro e he
  unfold Builder.note at he
  split at he
  · rcases List.mem_append.1 he with he | he
    · exact h e he
    · exact List.mem_singleton.1 he ▸ hd
  · exact h e he

theorem Structural.noteAll {builder : Builder} (h : builder.Structural) {ds : List Diagnostic}
    (hds : ∀ d ∈ ds, d.isLexical = false) : (builder.noteAll ds).Structural := by
  unfold Builder.noteAll
  induction ds generalizing builder with
  | nil => exact h
  | cons d ds ih =>
    exact ih (h.note (hds d List.mem_cons_self)) fun e he => hds e (List.mem_cons_of_mem d he)

theorem Structural.leaveTimes {builder : Builder} (h : builder.Structural) (n : Nat) :
    (leaveTimes n builder).Structural := by
  intro d hd
  rw [diagnostics_leaveTimes] at hd
  exact h d hd

theorem Structural.append {builder : Builder} (h : builder.Structural) (node : Node) :
    (builder.append node).Structural := by
  intro d hd
  rw [diagnostics_append] at hd
  exact h d hd

theorem Structural.close {builder : Builder} (h : builder.Structural) (name : Text)
    (position : Nat) : (builder.close name position).Structural := by
  unfold Builder.close
  split
  · refine (h.noteAll fun d hd => ?_).leaveTimes _
    obtain ⟨skipped, -, rfl⟩ := List.mem_map.1 hd
    rfl
  · exact h.note rfl

theorem Structural.add {builder : Builder} (h : builder.Structural) (token : Token) :
    (builder.add token).Structural := by
  obtain ⟨lexeme, position⟩ := token
  cases lexeme with
  | text data => exact h.append _
  | comment data => exact h.append _
  | code raw => exact h.append _
  | tag raw tag =>
    simp only [Builder.add, addTag]
    split_ifs
    · exact h.append _
    · exact h
    · exact h.close _ _
    · exact h.append _
    · exact h

theorem structural_build (collect : Bool) (tokens : List Token) :
    (build collect tokens).Structural := by
  have hstart : (start collect).Structural := fun d hd => absurd hd List.not_mem_nil
  have hall : ((start collect).addAll tokens).Structural :=
    List.foldlRecOn tokens Builder.add hstart fun builder h token _ => h.add token
  refine (hall.noteAll fun d hd => ?_).leaveTimes _
  obtain ⟨skipped, -, rfl⟩ := List.mem_map.1 hd
  rfl

end Builder

namespace Scan

theorem isLexical_of_mem_diagnostics {source : Text} :
    ∀ d ∈ diagnostics source, d.isLexical = true := by
  intro d hd
  obtain ⟨⟨construct, position⟩, -, rfl⟩ := List.mem_map.1 hd
  cases construct <;> rfl

theorem diagnostics_eq (source : Text) :
    (diagnostics source = [] ∧ ∀ token construct, (tokenize source).getLast? = some token →
      ¬ token.CutShort source construct) ∨
    ∃ token construct, (tokenize source).getLast? = some token ∧ token.CutShort source construct ∧
      diagnostics source = [⟨construct.code, some token.position, construct.message⟩] := by
  rcases cuts_eq source with ⟨hcuts, hnone⟩ | ⟨token, construct, hlast, hcut, hcuts⟩
  · exact .inl ⟨by simp [diagnostics, hcuts], hnone⟩
  · exact .inr ⟨token, construct, hlast, hcut, by simp [diagnostics, hcuts, diagnostic]⟩

theorem cuts_of_mem {source : Text} {cut : Construct × Nat} (h : cut ∈ cuts source) :
    cuts source = [cut] := by
  rcases cuts_eq source with ⟨hcuts, -⟩ | ⟨token, construct, -, -, hcuts⟩
  · simp [hcuts] at h
  · rw [hcuts, List.mem_singleton] at h
    rw [hcuts, h]

end Scan

def cutError (source : Text) (cut : Construct × Nat) : TemplateError :=
  .cutShort cut.1 ((source.drop cut.2).take fragmentLength)

section Compile

variable {options : Options} {source : Text}

theorem scanFrom_lenient (mode : Scan.Mode) (position : Nat) (s : Text) :
    scanFrom false mode position s = .ok (Scan.tokensFrom position (Scan.piecesFrom mode s)) := by
  fun_induction Scan.piecesFrom mode s generalizing position with
  | case1 => rw [scanFrom, Scan.tokensFrom]
  | case2 mode c s next ih => simp [scanFrom, ih, Except.map, Scan.tokensFrom, next]

theorem scanFrom_strict (mode : Scan.Mode) (before s : Text) :
    scanFrom true mode before.length s =
      match Scan.cutsFrom before.length (Scan.piecesFrom mode s) with
      | [] => .ok (Scan.tokensFrom before.length (Scan.piecesFrom mode s))
      | cut :: _ => .error (cutError (before ++ s) cut) := by
  fun_induction Scan.piecesFrom mode s generalizing before with
  | case1 => rw [scanFrom, Scan.tokensFrom, Scan.cutsFrom]
  | case2 mode c s next ih =>
    have hsource : before ++ c :: s = before ++ next.piece.source ++ next.rest := by
      rw [List.append_assoc, Scan.source_append_step]
    unfold scanFrom
    cases hcut : next.piece.cut with
    | some construct => simp [next, hcut, Scan.cutsFrom, cutError]
    | none =>
      have hrest := ih (before ++ next.piece.source)
      rw [List.length_append, ← hsource] at hrest
      simp only [Scan.cutsFrom, Scan.tokensFrom, next, hcut, hrest]
      cases Scan.cutsFrom _ (Scan.piecesFrom next.mode next.rest) <;> rfl

/-- A scan comes to the tokens of the source, or in strict mode to an error about what is left open. -/
theorem scan_eq (strict : Bool) (source : Text) :
    scan strict source =
      match strict, Scan.cuts source with
      | true, cut :: _ => .error (cutError source cut)
      | _, _ => .ok (tokenize source) := by
  cases strict with
  | false => exact scanFrom_lenient .content 0 source
  | true =>
    refine (scanFrom_strict .content [] source).trans ?_
    simp only [Scan.cuts, Scan.pieces, tokenize, List.length_nil, List.nil_append]
    cases Scan.cutsFrom 0 (Scan.piecesFrom .content source) <;> rfl

theorem tokens_of_scan {strict : Bool} {tokens : List Token} (h : scan strict source = .ok tokens) :
    tokens = tokenize source := by
  rw [scan_eq] at h
  split at h <;> cases h
  rfl

theorem outcome_compileWith (rendering : Document → Rendered Page) (options : Options) (source : Text) :
    (compileWith rendering options source).outcome =
      match scan options.strict source with
      | .error e => .error (.template e)
      | .ok tokens =>
        ((Session.start options.injectAssets).complete (rendering (documentOf tokens))).outcome.map
          fun output => ⟨tokens, documentOf tokens, output,
            if options.collect then Scan.diagnostics source ++ (build true tokens).diagnostics
            else []⟩ := by
  unfold compileWith
  cases scan options.strict source with
  | error e => rfl
  | ok tokens =>
    cases hc : options.collect <;> simp [Builder.roots_build, Builder.diagnostics_build_false]

theorem outcome_compile (options : Options) (source : Text) :
    (compile options source).outcome =
      match scan options.strict source with
      | .error e => .error (.template e)
      | .ok tokens =>
        ((Session.start options.injectAssets).generate (documentOf tokens)).outcome.map fun output =>
          ⟨tokens, documentOf tokens, output,
            if options.collect then Scan.diagnostics source ++ (build true tokens).diagnostics
            else []⟩ :=
  outcome_compileWith renderAll options source

theorem outcome_compile_strict {cut : Construct × Nat} (h : cut ∈ Scan.cuts source) :
    (compile { options with strict := true } source).outcome =
      .error (.template (cutError source cut)) := by
  have hscan : scan true source = .error (cutError source cut) := by
    simp [scan_eq, Scan.cuts_of_mem h]
  simp [outcome_compile, hscan]

theorem compile_strict_of_complete (h : Scan.diagnostics source = []) :
    compile { options with strict := true } source =
      compile { options with strict := false } source := by
  have hcuts : Scan.cuts source = [] := List.map_eq_nil_iff.1 h
  simp [compile, compileWith, scan_eq, hcuts]

theorem lexical_of_collected {template : Template} (h :
    (compile { options with strict := false, collect := true } source).outcome = .ok template) :
    template.diagnostics.filter Diagnostic.isLexical = Scan.diagnostics source := by
  have hscan : scan false source = .ok (tokenize source) := scan_eq false source
  rw [outcome_compile, hscan] at h
  obtain ⟨output, -, rfl⟩ := map_eq_ok_iff.1 h
  have hlexical : (Scan.diagnostics source).filter Diagnostic.isLexical = Scan.diagnostics source :=
    List.filter_eq_self.2 Scan.isLexical_of_mem_diagnostics
  have hstructural : (build true (tokenize source)).diagnostics.filter Diagnostic.isLexical = [] := by
    apply List.filter_eq_nil_iff.2
    intro d hd
    simp [Builder.structural_build true (tokenize source) d hd]
  simp [hlexical, hstructural]

def Template.content (template : Template) : List Token × Document × Text :=
  (template.tokens, template.document, template.output)

theorem map_content_compile (options : Options) (source : Text) (collect : Bool) :
    (compile { options with collect } source).outcome.map Template.content =
      (compile options source).outcome.map Template.content := by
  rw [outcome_compile, outcome_compile]
  cases scan options.strict source with
  | error e => rfl
  | ok tokens =>
    dsimp only
    cases ((Session.start options.injectAssets).generate (documentOf tokens)).outcome <;> rfl

theorem diagnostics_of_not_collected {template : Template}
    (h : (compile { options with collect := false } source).outcome = .ok template) :
    template.diagnostics = [] := by
  rw [outcome_compile] at h
  split at h
  · cases h
  · obtain ⟨output, -, rfl⟩ := map_eq_ok_iff.1 h
    rfl

end Compile

/-- How strict mode and the collection of diagnostics bear on the compilation of a source. -/
structure Observers (options : Options) (source : Text) : Prop where
  reports :
    (Scan.diagnostics source = [] ∧ ∀ token construct, (tokenize source).getLast? = some token →
      ¬ token.CutShort source construct) ∨
    ∃ token construct, (tokenize source).getLast? = some token ∧ token.CutShort source construct ∧
      Scan.diagnostics source = [⟨construct.code, some token.position, construct.message⟩]
  collects : ∀ template,
    (compile { options with strict := false, collect := true } source).outcome = .ok template →
      template.diagnostics.filter Diagnostic.isLexical = Scan.diagnostics source
  rejects : ∀ d ∈ Scan.diagnostics source, ∃ (position : Nat) (e : TemplateError),
    d.position = some (position : Int) ∧
      (compile { options with strict := true } source).outcome = .error (.template e) ∧
      e.report = ⟨.lexical, d.message, some ((source.drop position).take 40)⟩
  agrees : Scan.diagnostics source = [] →
    compile { options with strict := true } source = compile { options with strict := false } source
  keeps : ∀ collect,
    (compile { options with collect } source).outcome.map Template.content =
      (compile options source).outcome.map Template.content
  discards : ∀ template,
    (compile { options with collect := false } source).outcome = .ok template →
      template.diagnostics = []

/-- Neither option takes part in compiling: strict mode turns the one diagnostic of the scanner into
an error and changes nothing where there is none, and collecting changes the diagnostics alone. -/
theorem compile_observers (options : Options) (source : Text) : Observers options source where
  reports := Scan.diagnostics_eq source
  collects := fun _ h => lexical_of_collected h
  rejects := by
    intro d hd
    obtain ⟨⟨construct, position⟩, hcut, rfl⟩ := List.mem_map.1 hd
    exact ⟨position, cutError source (construct, position), rfl, outcome_compile_strict hcut, rfl⟩
  agrees := compile_strict_of_complete
  keeps := map_content_compile options source
  discards := fun _ h => diagnostics_of_not_collected h

end MarkupTemplate
