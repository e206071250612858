import MarkupTemplate.Proofs.CompiledText
import MarkupTemplate.Proofs.FilterChain

/-!
# Values inside the escaping call

A value is printed inside a call of the escaping function, behind whose opening parenthesis stand the
variable and the options as they are written. The variable is checked character by character and the
options are not checked, so the text of either may close the call early. Nothing else does: each filter
opens one parenthesis and closes it again. A text that stands among balanced ones may therefore close as
many parentheses as there are filters around it, provided that it opens them again.
-/

namespace MarkupTemplate

namespace Code

/-- Where a reader of host code stands: between literals, in one, or behind a backslash in one. -/
inductive Stand
  | outside
  | inside (quote : Char)
  | escaped (quote : Char)
deriving DecidableEq

def Stand.next : Stand → Char → Stand
  | .outside, c => if c = '"' ∨ c = '\'' then .inside c else .outside
  | .inside quote, c =>
    if c = '\\' then .escaped quote else if c = quote then .outside else .inside quote
  | .escaped quote, _ => .inside quote

def Stand.after (stand : Stand) (s : Text) : Stand :=
  s.foldl Stand.next stand

/-- The parentheses open behind `c`, of which `depth` are open before it. Inside a literal they do not
count. There is no answer where one is closed that is not open. -/
def depthBehind? (stand : Stand) (depth : Nat) (c : Char) : Option Nat :=
  if stand = .outside then
    if c = '(' then some (depth + 1)
    else if c = ')' then if depth = 0 then none else some (depth - 1)
    else some depth
  else some depth

def depth? (stand : Stand) (depth : Nat) : Text → Option Nat
  | [] => some depth
  | c :: s => (depthBehind? stand depth c).bind fun behind => depth? (stand.next c) behind s

def ClosesLiterals (s : Text) : Prop :=
  Stand.outside.after s = .outside

/-- Outside literals, every parenthesis that is opened is closed, and no other. -/
def Balanced (s : Text) : Prop :=
  ClosesLiterals s ∧ depth? .outside 0 s = some 0

instance (s : Text) : Decidable (ClosesLiterals s) :=
  inferInstanceAs (Decidable (_ = _))

instance (s : Text) : Decidable (Balanced s) :=
  inferInstanceAs (Decidable (_ ∧ _))

variable {a b s : Text} {j k : Nat}

theorem depth?_append (stand : Stand) (depth : Nat) (a b : Text) :
    depth? stand depth (a ++ b) =
      (depth? stand depth a).bind fun behind => depth? (stand.after a) behind b := by
  induction a generalizing stand depth with
  | nil => rfl
  | cons c a ih =>
    rw [List.cons_append, depth?, depth?, Option.bind_assoc]
    exact congrArg _ (funext fun behind => ih (stand.next c) behind)

theorem closesLiterals_append (ha : ClosesLiterals a) :
    ClosesLiterals (a ++ b) ↔ ClosesLiterals b := by
  rw [ClosesLiterals, Stand.after, List.foldl_append]
  exact iff_of_eq (congrArg (fun stand => Stand.after stand b = .outside) ha)

theorem depthBehind?_add {stand : Stand} {depth behind : Nat} {c : Char}
    (h : depthBehind? stand depth c = some behind) (k : Nat) :
    depthBehind? stand (depth + k) c = some (behind + k) := by
  unfold depthBehind? at h ⊢
  split_ifs at h ⊢ <;> simp only [Option.some_inj] at h ⊢ <;> omega

theorem depth?_add {stand : Stand} {depth behind : Nat} (h : depth? stand depth s = some behind)
    (k : Nat) : depth? stand (depth + k) s = some (behind + k) := by
  induction s generalizing stand depth with
  | nil =>
    rw [depth?, Option.some_inj] at h ⊢
    rw [h]
  | cons c s ih =>
    obtain ⟨middle, hc, hs⟩ := Option.bind_eq_some_iff.1 h
    rw [depth?, depthBehind?_add hc, Option.bind_some]
    exact ih hs

structure Opens (k : Nat) (s : Text) : Prop where
  closesLiterals : ClosesLiterals s
  depth : ∀ depth, depth? .outside depth s = some (depth + k)

structure Closes (k : Nat) (s : Text) : Prop where
  closesLiterals : ClosesLiterals s
  depth : ∀ depth, depth? .outside depth s = if k ≤ depth then some (depth - k) else none

theorem Balanced.depth?_eq (h : Balanced s) (depth : Nat) : depth? .outside depth s = some depth := by
  simpa using depth?_add h.2 depth

theorem Balanced.opens (h : Balanced s) : Opens 0 s :=
  ⟨h.1, h.depth?_eq⟩

theorem Balanced.closes (h : Balanced s) : Closes 0 s := by
  refine ⟨h.1, fun depth => ?_⟩
  rw [h.depth?_eq, if_pos (Nat.zero_le depth), Nat.sub_zero]

theorem opens_parenthesis : Opens 1 ['('] :=
  ⟨rfl, fun _ => rfl⟩

theorem closes_parenthesis : Closes 1 [')'] := by
  refine ⟨rfl, fun depth => ?_⟩
  cases depth <;> rfl

theorem Opens.append (ha : Opens j a) (hb : Opens k b) : Opens (j + k) (a ++ b) := by
  refine ⟨(closesLiterals_append ha.closesLiterals).2 hb.closesLiterals, fun depth => ?_⟩
  rw [depth?_append, ha.depth, ha.closesLiterals, Option.bind_some, hb.depth, Nat.add_assoc]

theorem Closes.append (ha : Closes j a) (hb : Closes k b) : Closes (j + k) (a ++ b) := by
  refine ⟨(closesLiterals_append ha.closesLiterals).2 hb.closesLiterals, fun depth => ?_⟩
  rw [depth?_append, ha.depth, ha.closesLiterals]
  by_cases hj : j ≤ depth
  · have hk : k ≤ depth - j ↔ j + k ≤ depth := by omega
    rw [if_pos hj, Option.bind_some, hb.depth, Nat.sub_sub]
    simp only [hk]
  · rw [if_neg hj, if_neg (by omega), Option.bind_none]

theorem Balanced.append (ha : Balanced a) (hb : Balanced b) : Balanced (a ++ b) :=
  have h := ha.opens.append hb.opens
  ⟨h.closesLiterals, h.depth 0⟩

/-- `wrap` puts a text between one that opens `k` parentheses and one that closes them. -/
def Encloses (k : Nat) (wrap : Text → Text) : Prop :=
  ∃ front back, (∀ s, wrap s = front ++ s ++ back) ∧ Opens k front ∧ Closes k back

/-- An enclosed text is balanced together with what encloses it exactly where it leaves the `k`
parentheses around it open. -/
theorem Encloses.balanced_iff {wrap : Text → Text} (h : Encloses k wrap) (hs : ClosesLiterals s) :
    Balanced (wrap s) ↔ depth? .outside k s = some k := by
  obtain ⟨front, back, hwrap, hf, hb⟩ := h
  have hclosed : ClosesLiterals (front ++ (s ++ back)) := by
    rw [closesLiterals_append hf.closesLiterals, closesLiterals_append hs]
    exact hb.closesLiterals
  have hdepth : depth? .outside 0 (front ++ (s ++ back)) =
      (depth? .outside k s).bind fun behind => if k ≤ behind then some (behind - k) else none := by
    rw [depth?_append, hf.depth, hf.closesLiterals, Option.bind_some, depth?_append, hs, Nat.zero_add]
    exact congrArg _ (funext fun behind => hb.depth behind)
  rw [hwrap, List.append_assoc, Balanced, hdepth, and_iff_right hclosed]
  cases depth? .outside k s with
  | none => simp
  | some behind =>
    rw [Option.bind_some, Option.some_inj]
    by_cases hk : k ≤ behind
    · rw [if_pos hk, Option.some_inj]
      omega
    · rw [if_neg hk]
      exact iff_of_false (Option.some_ne_none 0).symm (by omega)

namespace Encloses

variable {wrap : Text → Text}

theorem unchanged : Encloses 0 fun s => s := by
  have hnil : Balanced [] := ⟨rfl, rfl⟩
  exact ⟨[], [], fun s => by simp, hnil.opens, hnil.closes⟩

theorem before (ha : Balanced a) (h : Encloses k wrap) : Encloses k fun s => a ++ wrap s := by
  obtain ⟨front, back, hwrap, hf, hb⟩ := h
  refine ⟨a ++ front, back, fun s => by simp [hwrap], ?_, hb⟩
  simpa using ha.opens.append hf

theorem behind (ha : Balanced a) (h : Encloses k wrap) : Encloses k fun s => wrap s ++ a := by
  obtain ⟨front, back, hwrap, hf, hb⟩ := h
  refine ⟨front, back ++ a, fun s => by simp [hwrap], hf, ?_⟩
  simpa using hb.append ha.closes

theorem parenthesized (h : Encloses k wrap) :
    Encloses (k + 1) fun s => Expression.parenthesized (wrap s) := by
  obtain ⟨front, back, hwrap, hf, hb⟩ := h
  refine ⟨['('] ++ front, back ++ [')'], fun s => ?_, ?_, hb.append closes_parenthesis⟩
  · simp [Expression.parenthesized, hwrap]
  · rw [Nat.add_comm]
    exact opens_parenthesis.append hf

theorem comp {outer : Text → Text} (ho : Encloses j outer) (hi : Encloses k wrap) :
    Encloses (j + k) fun s => outer (wrap s) := by
  obtain ⟨front, back, houter, hf, hb⟩ := ho
  obtain ⟨front', back', hwrap, hf', hb'⟩ := hi
  refine ⟨front ++ front', back' ++ back, fun s => by simp [houter, hwrap], hf.append hf', ?_⟩
  rw [Nat.add_comm]
  exact hb'.append hb

end Encloses

end Code

namespace Expression

open Code

variable {shape : Shape} {code : Text} {option : Option Text} {filter : Transform × Option Text}
  {filters : List (Transform × Option Text)}

theorem balanced_comma : Balanced [',', ' '] := by
  decide

theorem balanced_divisor : Balanced "/1000, ".toList := by
  decide

theorem encloses_thousands {arguments : Text → Text} (h : Encloses 0 arguments) :
    Encloses 1 fun s => "number_format".toList ++ parenthesized (arguments s) ++ ".'K'".toList := by
  have hfunction : Balanced "number_format".toList := by decide
  have hsuffix : Balanced ".'K'".toList := by decide
  exact (h.parenthesized.before hfunction).behind hsuffix

theorem encloses_code
    (hf : ∀ function, shape = .call function ∨ shape = .optionFirst function → Balanced function)
    (ho : ∀ s ∈ option, Balanced s) : Encloses 1 fun code => shape.emit code option := by
  cases shape with
  | call function =>
    have hfunction := hf function (.inl rfl)
    cases option with
    | none => exact Encloses.unchanged.parenthesized.before hfunction
    | some s =>
      have harguments : Encloses 0 fun code => code ++ [',', ' '] ++ s :=
        (Encloses.unchanged.behind balanced_comma).behind (ho s rfl)
      exact harguments.parenthesized.before hfunction
  | optionFirst function =>
    have hfunction := hf function (.inr rfl)
    cases option with
    | none => exact Encloses.unchanged.parenthesized.before hfunction
    | some s =>
      have harguments : Encloses 0 fun code => s ++ [',', ' '] ++ code :=
        Encloses.unchanged.before ((ho s rfl).append balanced_comma)
      exact harguments.parenthesized.before hfunction
  | thousands =>
    have hoption : Balanced (option.getD ['0']) := by
      cases option with
      | none => decide
      | some s => exact ho s rfl
    have harguments : Encloses 0 fun code => code ++ "/1000, ".toList ++ option.getD ['0'] :=
      (Encloses.unchanged.behind balanced_divisor).behind hoption
    exact encloses_thousands harguments

theorem encloses_option
    (hf : ∀ function, shape = .call function ∨ shape = .optionFirst function → Balanced function)
    (hc : Balanced code) : Encloses 1 fun option => shape.emit code (some option) := by
  cases shape with
  | call function =>
    have harguments : Encloses 0 fun option => code ++ [',', ' '] ++ option :=
      Encloses.unchanged.before (hc.append balanced_comma)
    exact harguments.parenthesized.before (hf function (.inl rfl))
  | optionFirst function =>
    have harguments : Encloses 0 fun option => option ++ [',', ' '] ++ code :=
      (Encloses.unchanged.behind balanced_comma).behind hc
    exact harguments.parenthesized.before (hf function (.inr rfl))
  | thousands =>
    have harguments : Encloses 0 fun option => code ++ "/1000, ".toList ++ option :=
      Encloses.unchanged.before (hc.append balanced_divisor)
    exact encloses_thousands harguments

theorem balanced_function (hw : ∀ w ∈ filter.1.words, Balanced w) (function : Text)
    (hf : filter.1.shape = .call function ∨ filter.1.shape = .optionFirst function) :
    Balanced function := by
  apply hw
  rcases hf with hf | hf <;> simp [Transform.words, hf]

theorem encloses_filter (hw : ∀ w ∈ filter.1.words, Balanced w) (ho : ∀ s ∈ filter.2, Balanced s) :
    Encloses 1 fun code => filter.1.shape.emit code (filter.2.or filter.1.standard) := by
  refine encloses_code (balanced_function hw) fun s hs => ?_
  rcases Option.or_eq_some_iff.1 hs with hs | ⟨-, hs⟩
  · exact ho s hs
  · exact hw s (List.mem_append_right _ (Option.mem_toList.2 hs))

/-- The options that are written in a chain, each with the number of filters that come with it and
behind it, whose parentheses stand around it. -/
def writtenOptions : List (Transform × Option Text) → List (Nat × Text)
  | [] => []
  | filter :: filters =>
    (filter.2.toList.map fun option => (filters.length + 1, option)) ++ writtenOptions filters

def writtenTexts (var : Text) (filters : List (Transform × Option Text)) : List (Nat × Text) :=
  (filters.length, var) :: writtenOptions filters

theorem balanced_option (ho : ∀ text ∈ writtenOptions (filter :: filters), Balanced text.2) :
    ∀ s ∈ filter.2, Balanced s := by
  intro s hs
  exact ho (filters.length + 1, s) (by simp [writtenOptions, Option.mem_def.1 hs])

theorem encloses_applyAll (hw : ∀ filter ∈ filters, ∀ w ∈ filter.1.words, Balanced w)
    (ho : ∀ text ∈ writtenOptions filters, Balanced text.2) :
    Encloses filters.length fun code => applyAll code filters := by
  induction filters with
  | nil => exact Encloses.unchanged
  | cons filter filters ih =>
    rw [List.forall_mem_cons] at hw
    have hfilter := encloses_filter hw.1 (balanced_option ho)
    have hrest := ih hw.2 fun text ht => ho text (List.mem_append_right _ ht)
    exact hrest.comp hfilter

theorem exists_encloses_option (hw : ∀ filter ∈ filters, ∀ w ∈ filter.1.words, Balanced w)
    (hc : Balanced code) {before after : List (Nat × Text)} {k : Nat} {s : Text}
    (hsplit : writtenOptions filters = before ++ (k, s) :: after)
    (ho : ∀ text ∈ before ++ after, Balanced text.2) :
    ∃ wrap, Encloses k wrap ∧ applyAll code filters = wrap s := by
  induction filters generalizing code before with
  | nil => simp [writtenOptions] at hsplit
  | cons filter filters ih =>
    rw [List.forall_mem_cons] at hw
    -- behind a filter with a balanced option the code is balanced again
    have hnext : (∀ s ∈ filter.2, Balanced s) →
        Balanced (filter.1.shape.emit code (filter.2.or filter.1.standard)) := by
      intro hoption
      rw [(encloses_filter hw.1 hoption).balanced_iff hc.1]
      exact hc.depth?_eq 1
    cases hoption : filter.2 with
    | none =>
      rw [writtenOptions, hoption, Option.toList_none, List.map_nil, List.nil_append] at hsplit
      exact ih hw.2 (hnext (by simp [hoption])) hsplit ho
    | some option =>
      rw [writtenOptions, hoption, Option.toList_some, List.map_singleton,
        List.singleton_append] at hsplit
      cases before with
      | nil =>
        rw [List.nil_append, List.cons.injEq, Prod.mk.injEq] at hsplit
        obtain ⟨⟨rfl, rfl⟩, rfl⟩ := hsplit
        have hrest := encloses_applyAll hw.2 ho
        refine ⟨_, hrest.comp (encloses_option (balanced_function hw.1) hc), ?_⟩
        rw [applyAll, List.foldl_cons, hoption, Option.some_or]
        rfl
      | cons text before =>
        rw [List.cons_append, List.cons.injEq] at hsplit
        obtain ⟨rfl, hsplit⟩ := hsplit
        rw [List.cons_append, List.forall_mem_cons] at ho
        exact ih hw.2 (hnext (by simpa [hoption] using ho.1)) hsplit ho.2

theorem named?_of_transform? {segment : Text} (h : transform? segment = some filter) :
    named? segment = some (.transform filter.1) := by
  unfold transform? at h
  split at h
  · next t ht =>
    cases h
    exact ht
  · cases h

theorem balanced_words (segments : List Text) :
    ∀ filter ∈ segments.filterMap transform?, ∀ w ∈ filter.1.words, Balanced w := by
  intro filter hmem w hw
  obtain ⟨segment, -, hsegment⟩ := List.mem_filterMap.1 hmem
  exact of_decide_eq_true
    (words_of_filter? (p := fun w => decide (Balanced w)) (by decide +kernel)
      (named?_of_transform? hsegment) hw)

def noEscape : Text :=
  "noescape".toList

theorem selectedHandler_of_not_mem {segments : List Text} (h : noEscape ∉ segments) :
    selectedHandler segments = some htmlEscape := by
  have hall : directives.all (fun entry => entry.1 == noEscape || entry.2 == some htmlEscape) = true := by
    decide
  have hhandler : ∀ handler ∈ segments.filterMap handler?, handler = some htmlEscape := by
    intro handler hmem
    obtain ⟨segment, hsegment, hd⟩ := List.mem_filterMap.1 hmem
    obtain ⟨before, after, hsplit, -⟩ := List.lookup_eq_some_iff.1 hd
    have hentry := List.all_eq_true.1 hall (segment, handler) (by simp [hsplit])
    have hne : segment ≠ noEscape := by
      rintro rfl
      exact h hsegment
    simpa [hne] using hentry
  rw [selectedHandler]
  cases hlast : (segments.filterMap handler?).getLast? with
  | none => rfl
  | some handler => exact hhandler handler (List.mem_of_getLast? hlast)

theorem exists_hostVariable_eq (var : Text) :
    ∃ dollar, Balanced dollar ∧ hostVariable var = dollar ++ var := by
  unfold hostVariable
  split_ifs
  · exact ⟨[], ⟨rfl, rfl⟩, rfl⟩
  · exact ⟨['$'], ⟨rfl, rfl⟩, rfl⟩

theorem exists_encloses_text {var s : Text} {segments : List Text} {before after : List (Nat × Text)}
    {k : Nat} (hsplit : writtenTexts var (segments.filterMap transform?) = before ++ (k, s) :: after)
    (h : ∀ text ∈ before ++ after, Balanced text.2) :
    ∃ wrap, Encloses k wrap ∧ composed (hostVariable var) segments = wrap s := by
  have hwords := balanced_words segments
  obtain ⟨dollar, hdollar, hvar⟩ := exists_hostVariable_eq var
  rw [composed, hvar]
  cases before with
  | nil =>
    rw [writtenTexts, List.nil_append, List.cons.injEq, Prod.mk.injEq] at hsplit
    obtain ⟨⟨rfl, rfl⟩, rfl⟩ := hsplit
    exact ⟨_, (encloses_applyAll hwords h).comp (Encloses.unchanged.before hdollar), rfl⟩
  | cons text before =>
    rw [writtenTexts, List.cons_append, List.cons.injEq] at hsplit
    obtain ⟨rfl, hsplit⟩ := hsplit
    rw [List.cons_append, List.forall_mem_cons] at h
    exact exists_encloses_option hwords (hdollar.append h.1) hsplit h.2

theorem balanced_composed_iff {var s : Text} {segments : List Text} {before after : List (Nat × Text)}
    {k : Nat} (hsplit : writtenTexts var (segments.filterMap transform?) = before ++ (k, s) :: after)
    (h : ∀ text ∈ before ++ after, Balanced text.2) (hs : ClosesLiterals s) :
    Balanced (composed (hostVariable var) segments) ↔ depth? .outside k s = some k := by
  obtain ⟨wrap, hwrap, hcode⟩ := exists_encloses_text hsplit h
  rw [hcode, hwrap.balanced_iff hs]

theorem result_of_compile {expr result : Text} (h : compile expr = .ok result)
    (hlink : ∀ segment ∈ chainPart expr, isLink segment = false) :
    result = escapedOnce (hostVariable (variablePart expr)) (chainPart expr) := by
  rw [compile_eq_run] at h
  split_ifs at h with hvar
  cases hunknown : firstUnknown? (chainPart expr) with
  | some segment =>
    rw [run_of_unknown hunknown] at h
    cases h
  | none =>
    have hnone : (chainPart expr).find? isLink = none := by
      simpa using hlink
    rw [run_of_end hunknown hnone] at h
    exact (Except.ok.inj h).symm

theorem escapeCall_htmlEscape (code : Text) :
    escapeCall htmlEscape code =
      "htmlspecialchars(".toList ++ code ++ ", ENT_QUOTES | ENT_SUBSTITUTE, 'UTF-8')".toList := by
  have hopen : "htmlspecialchars(".toList = htmlEscape ++ ['('] := by decide +kernel
  have hclose : ", ENT_QUOTES | ENT_SUBSTITUTE, 'UTF-8')".toList =
      ", ENT_QUOTES | ENT_SUBSTITUTE, 'UTF-8'".toList ++ [')'] := by
    decide +kernel
  rw [escapeCall, if_pos rfl, hopen, hclose, parenthesized]
  simp only [List.append_assoc, List.cons_append, List.nil_append]

/-- What the code of a value is inside the escaping call, for the texts written in its chain. Balanced
code keeps the call open up to its own last parenthesis, and a text among balanced ones may close the
parentheses of the filters around it if it opens them again. -/
structure InEscapeCall (texts : List (Nat × Text)) (inner result : Text) : Prop where
  call : result = "htmlspecialchars(".toList ++ inner ++
    ", ENT_QUOTES | ENT_SUBSTITUTE, 'UTF-8')".toList
  argument : Balanced inner → Balanced (inner ++ ", ENT_QUOTES | ENT_SUBSTITUTE, 'UTF-8'".toList)
  balanced : (∀ text ∈ texts, Balanced text.2) → Balanced inner
  balanced_iff : ∀ before k s after, texts = before ++ (k, s) :: after →
    (∀ text ∈ before ++ after, Balanced text.2) → ClosesLiterals s →
    (Balanced inner ↔ depth? .outside k s = some k)

/-- A value that awaits escaping is printed inside the escaping call, as far as the texts written in its
chain do not leave it. -/
theorem inEscapeCall_compile {expr result : Text} (h : compile expr = .ok result)
    (hlink : ∀ segment ∈ chainPart expr, isLink segment = false)
    (hescape : noEscape ∉ chainPart expr) (hawaits : awaitsEscape (chainPart expr) = true) :
    InEscapeCall (writtenTexts (variablePart expr) ((chainPart expr).filterMap transform?))
      (composed (hostVariable (variablePart expr)) (chainPart expr)) result := by
  have harguments : Balanced ", ENT_QUOTES | ENT_SUBSTITUTE, 'UTF-8'".toList := by decide +kernel
  refine ⟨?_, fun hinner => hinner.append harguments, fun hall => ?_,
    fun _ _ _ _ => balanced_composed_iff⟩
  · rw [result_of_compile h hlink, escapedOnce, selectedHandler_of_not_mem hescape]
    dsimp only
    rw [if_pos hawaits, escapeCall_htmlEscape]
  · rw [writtenTexts, List.forall_mem_cons] at hall
    exact (balanced_composed_iff (List.nil_append _).symm hall.2 hall.1.1).2 (hall.1.depth?_eq _)

def reopened : Text :=
  "a['(']) . trim($b | upper | trim:')' | escape".toList

def reopenedOutput : Text :=
  "htmlspecialchars(trim(strtoupper($a['(']) . trim($b), ')')".toList ++
    ", ENT_QUOTES | ENT_SUBSTITUTE, 'UTF-8')".toList

theorem inEscapeCall_compile_reopened :
    compile reopened = .ok reopenedOutput ∧ ¬ Balanced (variablePart reopened) ∧
      Balanced (composed (hostVariable (variablePart reopened)) (chainPart reopened)) := by
  have h : compile reopened = .ok reopenedOutput := by decide +kernel
  have hcall := inEscapeCall_compile h (by decide +kernel) (by decide +kernel) (by decide +kernel)
  have hiff := hcall.balanced_iff [] 2 "a['(']) . trim($b".toList [(1, "')'".toList)]
    (by decide +kernel) (by decide +kernel) (by decide +kernel)
  exact ⟨h, by decide +kernel, hiff.2 (by decide +kernel)⟩

theorem not_forall_inEscapeCall :
    ¬ ∀ expr result : Text, compile expr = .ok result →
      (∀ segment ∈ chainPart expr, isLink segment = false) → noEscape ∉ chainPart expr →
      awaitsEscape (chainPart expr) = true →
      ∃ inner, result = "htmlspecialchars(".toList ++ inner ++
        ", ENT_QUOTES | ENT_SUBSTITUTE, 'UTF-8')".toList ∧ Balanced inner := by
  intro hall
  have hok : compile "a)".toList = .ok ("htmlspecialchars(".toList ++ "$a)".toList ++
      ", ENT_QUOTES | ENT_SUBSTITUTE, 'UTF-8')".toList) := by
    decide +kernel
  obtain ⟨inner, hresult, hinner⟩ :=
    hall _ _ hok (by decide +kernel) (by decide +kernel) (by decide +kernel)
  have hcode : "$a)".toList = inner := List.append_cancel_left (List.append_cancel_right hresult)
  rw [← hcode] at hinner
  exact absurd hinner (by decide +kernel)

end Expression

end MarkupTemplate
