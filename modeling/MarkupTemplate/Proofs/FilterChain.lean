import Mathlib.Data.List.TakeWhile
import Mathlib.Tactic
import MarkupTemplate.Expression

/-!
# The closed form of a filter chain

A chain is run from left to right, and three things are carried along: the code so far, the escaping
function, and whether the code still awaits it. Each can be read off the chain as a whole. The code is
what the transformations make of the variable, one after another, whatever directives stand between
them. The escaping function is that of the last directive. Whether it is called is decided by the last
segment. A link ends the chain, and the first segment before it that is nothing known ends it with an
error.
-/

namespace MarkupTemplate

namespace Expression

def pieces (expr : Text) : List Text :=
  (List.splitOn '|' expr).map Text.trim

def variablePart (expr : Text) : Text :=
  (pieces expr).headD []

def chainPart (expr : Text) : List Text :=
  (pieces expr).tail

def handler? (segment : Text) : Option (Option Text) :=
  directives.lookup segment

def named? (segment : Text) : Option Filter :=
  filter? (splitFilter segment).1

def isKnown (segment : Text) : Bool :=
  (handler? segment).isSome || (named? segment).isSome

def isLink (segment : Text) : Bool :=
  named? segment == some .link

def beforeLink (segments : List Text) : List Text :=
  segments.takeWhile fun segment => !isLink segment

def firstUnknown? (segments : List Text) : Option Text :=
  (beforeLink segments).find? fun segment => !isKnown segment

def transform? (segment : Text) : Option (Transform × Option Text) :=
  match named? segment with
  | some (.transform t) => some (t, (splitFilter segment).2)
  | _ => none

def hostVariable (var : Text) : Text :=
  if var.head? = some '$' then var else '$' :: var

/-- What transformations make of `code`, from left to right. One without a written option takes its
own. -/
def applyAll (code : Text) (filters : List (Transform × Option Text)) : Text :=
  filters.foldl (fun code filter => filter.1.shape.emit code (filter.2.or filter.1.standard)) code

def composed (code : Text) (segments : List Text) : Text :=
  applyAll code (segments.filterMap transform?)

/-- The escaping function of the last directive, and the one for markup where there is none. -/
def selectedHandler (segments : List Text) : Option Text :=
  (segments.filterMap handler?).getLast?.getD (some htmlEscape)

/-- Whether there is no last segment, or it is a directive or a transformation whose result has to be
escaped. -/
def awaitsEscape (segments : List Text) : Bool :=
  segments.getLast?.all fun segment =>
    (handler? segment).isSome || (transform? segment).any (·.1.needsEscape)

def escapedOnce (code : Text) (segments : List Text) : Text :=
  match selectedHandler segments with
  | some handler =>
    if awaitsEscape segments then escapeCall handler (composed code segments)
    else composed code segments
  | none => composed code segments

/-- What an expression is compiled to, said of its chain as a whole. -/
def closedForm (expr : Text) : Except ErrorReport Text :=
  let var := variablePart expr
  let segments := chainPart expr
  if isVariable var then
    match firstUnknown? segments with
    | some segment =>
      .error ⟨.filter, "Unknown filter: ".toList ++ (splitFilter segment).1, some expr⟩
    | none =>
      match segments.find? isLink with
      | some segment =>
        .ok (link (composed (hostVariable var) (beforeLink segments)) (splitFilter segment).2
          (selectedHandler (beforeLink segments)))
      | none => .ok (escapedOnce (hostVariable var) segments)
  else .error ⟨.filter, "Invalid variable expression: ".toList ++ var, some var⟩

def textsOf (code option : Text) (handler : Option Text) : Filter → Text × Text
  | .transform t => (t.apply code none, t.apply code (some option))
  | .link => (link code none handler, link code (some option) handler)

/-- The texts that the filters write. -/
theorem textsOf_filters (code option : Text) (handler : Option Text) :
    let escaped (code : Text) := handler.elim code (escapeCall · code)
    (filters.map fun entry => (entry.1, textsOf code option handler entry.2)) =
    [("escapejs".toList,
        "json_encode(".toList ++ code ++ ", ".toList ++
          "JSON_HEX_TAG | JSON_HEX_APOS | JSON_HEX_QUOT | JSON_HEX_AMP".toList ++ ")".toList,
        "json_encode(".toList ++ code ++ ", ".toList ++ option ++ ")".toList),
      ("json".toList, "json_encode(".toList ++ code ++ ")".toList,
        "json_encode(".toList ++ code ++ ", ".toList ++ option ++ ")".toList),
      ("strip".toList, "strip_tags(".toList ++ code ++ ")".toList,
        "strip_tags(".toList ++ code ++ ", ".toList ++ option ++ ")".toList),
      ("trim".toList, "trim(".toList ++ code ++ ")".toList,
        "trim(".toList ++ code ++ ", ".toList ++ option ++ ")".toList),
      ("urlencode".toList, "rawurlencode(".toList ++ code ++ ")".toList,
        "rawurlencode(".toList ++ code ++ ", ".toList ++ option ++ ")".toList),
      ("lower".toList, "strtolower(".toList ++ code ++ ")".toList,
        "strtolower(".toList ++ code ++ ", ".toList ++ option ++ ")".toList),
      ("upper".toList, "strtoupper(".toList ++ code ++ ")".toList,
        "strtoupper(".toList ++ code ++ ", ".toList ++ option ++ ")".toList),
      ("nl2br".toList, "nl2br(".toList ++ code ++ ")".toList,
        "nl2br(".toList ++ code ++ ", ".toList ++ option ++ ")".toList),
      ("join".toList, "implode(', ', ".toList ++ code ++ ")".toList,
        "implode(".toList ++ option ++ ", ".toList ++ code ++ ")".toList),
      ("date".toList, "date('Y-m-d H:i:s', ".toList ++ code ++ ")".toList,
        "date(".toList ++ option ++ ", ".toList ++ code ++ ")".toList),
      ("number_format".toList, "number_format(".toList ++ code ++ ")".toList,
        "number_format(".toList ++ code ++ ", ".toList ++ option ++ ")".toList),
      ("number_shorten".toList,
        "number_format(".toList ++ code ++ "/1000, ".toList ++ "2".toList ++ ")".toList ++ ".'K'".toList,
        "number_format(".toList ++ code ++ "/1000, ".toList ++ option ++ ")".toList ++ ".'K'".toList),
      ("link".toList,
        "'<a href=\"' . (".toList ++ (escaped code ++ ")".toList) ++ " . '\">' . ".toList ++
          ("(".toList ++ escaped code ++ ")".toList) ++ " . '</a>'".toList,
        "'<a href=\"' . (".toList ++ (escaped code ++ ")".toList) ++ " . '\">' . ".toList ++
          ("(".toList ++ handler.elim option (escapeCall · ("(string)".toList ++ option)) ++ ")".toList) ++
          " . '</a>'".toList)] := by
  cases handler <;> rfl

def Segment.ofTrimmed (segment : Text) : Segment :=
  match handler? segment with
  | some handler => .directive handler
  | none =>
    match named? segment with
    | some f => .filter f (splitFilter segment).2
    | none => .unknown (splitFilter segment).1

theorem named?_of_handler? {segment : Text} {handler : Option Text}
    (h : handler? segment = some handler) : named? segment = none := by
  have hall : directives.all (fun entry => named? entry.1 == none) = true := by decide
  obtain ⟨before, after, hd, -⟩ := List.lookup_eq_some_iff.1 h
  have hmem : (segment, handler) ∈ directives := by simp [hd]
  simpa using List.all_eq_true.1 hall _ hmem

theorem transform?_of_handler? {segment : Text} {handler : Option Text}
    (h : handler? segment = some handler) : transform? segment = none := by
  rw [transform?, named?_of_handler? h]

def Chain.step (chain : Chain) (segment : Text) : Chain :=
  match handler? segment, transform? segment with
  | some handler, _ => { chain with handler, needsEscape := handler.isSome }
  | none, some (t, option) =>
    { chain with code := t.apply chain.code option, needsEscape := t.needsEscape }
  | none, none => chain

namespace Chain

variable {expr : Text} {segment : Text}

theorem run_known (chain : Chain) (hknown : isKnown segment = true) (hlink : isLink segment = false)
    (rest : List Segment) :
    chain.run expr (.ofTrimmed segment :: rest) = (chain.step segment).run expr rest := by
  unfold step Segment.ofTrimmed transform?
  cases hd : handler? segment with
  | some handler => rfl
  | none =>
    cases hf : named? segment with
    | none => simp [isKnown, hd, hf] at hknown
    | some f =>
      cases f with
      | link => simp [isLink, hf] at hlink
      | transform t => rfl

theorem run_unknown (chain : Chain) (hknown : isKnown segment = false) (rest : List Segment) :
    chain.run expr (.ofTrimmed segment :: rest) =
      .error (.unknownFilter (splitFilter segment).1 expr) := by
  rw [isKnown, Bool.or_eq_false_iff, Option.isSome_eq_false_iff, Option.isSome_eq_false_iff,
    Option.isNone_iff_eq_none, Option.isNone_iff_eq_none] at hknown
  rw [Segment.ofTrimmed, hknown.1, hknown.2, run]

theorem run_link (chain : Chain) (hlink : isLink segment = true) (rest : List Segment) :
    chain.run expr (.ofTrimmed segment :: rest) =
      .ok (link chain.code (splitFilter segment).2 chain.handler) := by
  have hnamed : named? segment = some .link := by simpa [isLink] using hlink
  have hdirective : handler? segment = none := by
    cases hd : handler? segment with
    | none => rfl
    | some handler => simp [named?_of_handler? hd] at hnamed
  rw [Segment.ofTrimmed, hdirective, hnamed, run]

theorem run_append {segments : List Text}
    (h : ∀ segment ∈ segments, isKnown segment = true ∧ isLink segment = false) (chain : Chain)
    (rest : List Segment) :
    chain.run expr (segments.map .ofTrimmed ++ rest) = (segments.foldl step chain).run expr rest := by
  induction segments generalizing chain with
  | nil => rfl
  | cons segment segments ih =>
    rw [List.forall_mem_cons] at h
    rw [List.map_cons, List.cons_append, run_known chain h.1.1 h.1.2, ih h.2, List.foldl_cons]

theorem code_foldl_step (segments : List Text) (chain : Chain) :
    (segments.foldl step chain).code = composed chain.code segments := by
  induction segments generalizing chain with
  | nil => rfl
  | cons segment segments ih =>
    rw [List.foldl_cons, ih]
    unfold step
    cases hd : handler? segment with
    | some handler => simp [composed, transform?_of_handler? hd]
    | none => cases ht : transform? segment <;> simp [composed, applyAll, ht, Transform.apply]

theorem handler_foldl_step (segments : List Text) (chain : Chain) :
    (segments.foldl step chain).handler =
      (segments.filterMap handler?).getLast?.getD chain.handler := by
  induction segments generalizing chain with
  | nil => rfl
  | cons segment segments ih =>
    rw [List.foldl_cons, ih]
    unfold step
    cases hd : handler? segment with
    | some handler => simp [hd, List.getLast?_cons]
    | none => cases ht : transform? segment <;> simp [hd]

theorem needsEscape_step (chain : Chain) (hknown : isKnown segment = true)
    (hlink : isLink segment = false) (hhandler : (chain.step segment).handler.isSome = true) :
    (chain.step segment).needsEscape =
      ((handler? segment).isSome || (transform? segment).any (·.1.needsEscape)) := by
  cases hd : handler? segment with
  -- a directive that turns escaping off leaves no function to do it
  | some handler =>
    simp only [step, hd] at hhandler ⊢
    simpa using hhandler
  | none =>
    cases hf : named? segment with
    | none => simp [isKnown, hd, hf] at hknown
    | some f =>
      cases f with
      | link => simp [isLink, hf] at hlink
      | transform t => simp [step, hd, transform?, hf]

theorem result_foldl_step {segments : List Text}
    (h : ∀ segment ∈ segments, isKnown segment = true ∧ isLink segment = false) (code : Text) :
    (segments.foldl step (start code)).result = escapedOnce code segments := by
  have hcode := code_foldl_step segments (start code)
  have hhandler : (segments.foldl step (start code)).handler = selectedHandler segments :=
    handler_foldl_step segments (start code)
  have hawaits : (segments.foldl step (start code)).handler.isSome = true →
      (segments.foldl step (start code)).needsEscape = awaitsEscape segments := by
    rcases List.eq_nil_or_concat segments with rfl | ⟨init, last, rfl⟩
    · intro _
      rfl
    · obtain ⟨hknown, hlink⟩ := h last (by simp)
      simp only [List.concat_eq_append, List.foldl_append, List.foldl_cons, List.foldl_nil]
      intro hsome
      rw [needsEscape_step _ hknown hlink hsome]
      simp [awaitsEscape]
  rw [result, escapedOnce, ← hhandler, hcode]
  cases hs : (segments.foldl step (start code)).handler with
  | none => rfl
  | some handler =>
    rw [hs] at hawaits
    dsimp only
    rw [hawaits rfl]
    rfl

end Chain

theorem compileVariable_eq (var : Text) :
    compileVariable var =
      if isVariable (Text.trim var) then .ok (hostVariable (Text.trim var))
      else .error (.invalidVariable (Text.trim var)) := rfl

theorem compile_eq_run (expr : Text) :
    compile expr =
      if isVariable (variablePart expr) then
        (Chain.start (hostVariable (variablePart expr))).run expr ((chainPart expr).map .ofTrimmed)
      else .error (.invalidVariable (variablePart expr)) := by
  obtain ⟨var, segments, hsplit⟩ :=
    List.exists_cons_of_ne_nil (List.splitOnP_ne_nil (· == '|') expr)
  have hpieces : pieces expr = Text.trim var :: segments.map Text.trim := by
    rw [pieces, List.splitOn, hsplit, List.map_cons]
  have hvar : variablePart expr = Text.trim var := by
    rw [variablePart, hpieces, List.headD_cons]
  have hchain : (chainPart expr).map Segment.ofTrimmed = segments.map Segment.read := by
    rw [chainPart, hpieces, List.tail_cons, List.map_map]
    rfl
  rw [compile, List.splitOn, hsplit, hvar, hchain]
  dsimp only
  rw [compileVariable_eq]
  split_ifs <;> rfl

section Ends

variable {expr code : Text} {segments : List Text} {segment : Text}

theorem not_isLink_of_mem (h : segment ∈ beforeLink segments) : isLink segment = false := by
  simpa using List.mem_takeWhile_imp h

theorem beforeLink_of_find? (h : segments.find? isLink = none) : beforeLink segments = segments := by
  rw [beforeLink, List.takeWhile_eq_self_iff]
  simpa using h

theorem known_of_firstUnknown? (h : firstUnknown? segments = none) :
    ∀ s ∈ beforeLink segments, isKnown s = true ∧ isLink s = false := by
  intro s hs
  rw [firstUnknown?, List.find?_eq_none] at h
  exact ⟨by simpa using h s hs, not_isLink_of_mem hs⟩

theorem run_of_unknown (h : firstUnknown? segments = some segment) :
    (Chain.start code).run expr (segments.map .ofTrimmed) =
      .error (.unknownFilter (splitFilter segment).1 expr) := by
  obtain ⟨hunknown, before, after, hsplit, hknown⟩ := List.find?_eq_some_iff_append.1 h
  have hbefore : ∀ s ∈ before, isKnown s = true ∧ isLink s = false := by
    intro s hs
    have hmem : s ∈ beforeLink segments := by simp [hsplit, hs]
    exact ⟨by simpa using hknown s hs, not_isLink_of_mem hmem⟩
  obtain ⟨rest, hrest⟩ : before ++ segment :: after <+: segments := by
    rw [← hsplit]
    exact List.takeWhile_prefix _
  rw [← hrest, List.append_assoc, List.cons_append, List.map_append, List.map_cons,
    Chain.run_append hbefore]
  exact Chain.run_unknown _ (by simpa using hunknown) _

theorem run_of_link (hknown : firstUnknown? segments = none)
    (hlink : segments.find? isLink = some segment) :
    (Chain.start code).run expr (segments.map .ofTrimmed) =
      .ok (link (composed code (beforeLink segments)) (splitFilter segment).2
        (selectedHandler (beforeLink segments))) := by
  have hbefore := known_of_firstUnknown? hknown
  obtain ⟨hsegment, before, after, rfl, hfree⟩ := List.find?_eq_some_iff_append.1 hlink
  have htake : beforeLink (before ++ segment :: after) = before := by
    rw [beforeLink, List.takeWhile_append_of_pos hfree, List.takeWhile_cons_of_neg (by simp [hsegment]),
      List.append_nil]
  rw [htake] at hbefore ⊢
  rw [List.map_append, List.map_cons, Chain.run_append hbefore, Chain.run_link _ hsegment,
    Chain.code_foldl_step, Chain.handler_foldl_step]
  rfl

theorem run_of_end (hknown : firstUnknown? segments = none) (hlink : segments.find? isLink = none) :
    (Chain.start code).run expr (segments.map .ofTrimmed) = .ok (escapedOnce code segments) := by
  have hsegments := known_of_firstUnknown? hknown
  rw [beforeLink_of_find? hlink] at hsegments
  have hrun : (Chain.start code).run expr (segments.map .ofTrimmed ++ []) = _ :=
    Chain.run_append hsegments _ []
  rw [List.append_nil] at hrun
  rw [hrun, Chain.run, Chain.result_foldl_step hsegments]

end Ends

-- a segment that is nothing known counts before a link and not behind it
example : compile "a|upper|bogus:1|link|worse".toList =
    .error (.unknownFilter "bogus".toList "a|upper|bogus:1|link|worse".toList) := by
  decide +kernel

example : compile "a|noescape|upper|link|worse".toList =
    compile "a | upper | noescape | link".toList := by
  decide +kernel

end Expression

end MarkupTemplate
