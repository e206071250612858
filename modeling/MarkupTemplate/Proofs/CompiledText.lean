import MarkupTemplate.Expression
import MarkupTemplate.Proofs.LoopCheck

/-!
# What compiled expressions and loops are put together from

An expression is compiled to parts of its own text with words of the compiler's between them, and so is
the header of a loop. A property of texts that parts inherit, and that is kept where such a word joins
two texts, therefore passes from the expression to what it is compiled to. The induction over the chain
of filters is made here once, for every such property.
-/

namespace MarkupTemplate

namespace Text

variable {s t : Text}

theorem isInfix_trim (s : Text) : trim s <:+: s := by
  obtain ⟨before, after, -, -, hs⟩ := exists_trim s
  exact ⟨before, after, hs.symm⟩

theorem splitOn_parts (sep : Char) (s : Text) : ∃ first others, List.splitOn sep s = first :: others ∧
    first <+: s ∧ ∀ part ∈ others, part <:+: s := by
  induction s with
  | nil => exact ⟨[], [], rfl, List.prefix_rfl, by simp⟩
  | cons c s ih =>
    obtain ⟨first, others, hs, hfirst, hothers⟩ := ih
    have hall : ∀ part ∈ others, part <:+: c :: s :=
      fun part hp => (hothers part hp).trans (List.suffix_cons c s).isInfix
    by_cases hc : c = sep
    · refine ⟨[], first :: others, by simp [List.splitOn_cons_eq_if_modifyHead, hc, hs], List.nil_prefix, ?_⟩
      intro part hp
      rcases List.mem_cons.1 hp with rfl | hp
      · exact hfirst.isInfix.trans (List.suffix_cons c s).isInfix
      · exact hall part hp
    · refine ⟨c :: first, others, by simp [List.splitOn_cons_eq_if_modifyHead, hc, hs], ?_, hall⟩
      exact List.cons_prefix_cons.2 ⟨rfl, hfirst⟩

def isOwnChar (c : Char) : Bool :=
  c == '\n' || (' ' ≤ c && c ≤ '~')

/-- Words of the compiler's own that open no block of the host language, neither alone nor together with
what stands on either side. -/
def isJoint (s : Text) : Bool :=
  s.all isOwnChar && decide (¬ ['<', '?'] <:+: s) && s.head?.any (· != '?') &&
    s.getLast?.any (· != '<')

/-- A property that the parts of a text inherit, and that the compiler's words keep between two texts. -/
structure Inherited (C : Text → Prop) : Prop where
  nil : C []
  part {s t : Text} : C t → s <:+: t → C s
  joint {a s b : Text} : isJoint s = true → C a → C b → C (a ++ (s ++ b))

namespace Inherited

variable {C : Text → Prop} {a b w x : Text}

theorem word (h : Inherited C) (hw : isJoint w = true) : C w := by
  simpa using h.joint hw h.nil h.nil

theorem after (h : Inherited C) (hw : isJoint w = true) (ha : C a) : C (w ++ a) :=
  h.joint hw h.nil ha

theorem before (h : Inherited C) (hw : isJoint w = true) (ha : C a) : C (a ++ w) := by
  simpa using h.joint hw ha h.nil

theorem between (h : Inherited C) (hw : isJoint w = true) (ha : C a) (hb : C b) :
    C (a ++ w ++ b) := by
  simpa using h.joint hw ha hb

theorem around (h : Inherited C) (hw : isJoint w = true) (hx : isJoint x = true) (ha : C a) :
    C (w ++ a ++ x) :=
  h.before hx (h.after hw ha)

theorem trim (h : Inherited C) (hs : C s) : C (trim s) :=
  h.part hs (isInfix_trim s)

theorem cut? (h : Inherited C) {mark before rest : Text} (hs : C s)
    (hc : cut? mark s = some (before, rest)) : C before ∧ C rest := by
  have hparts := append_of_cut? hc
  exact ⟨h.part hs ⟨[], mark ++ rest, by simp [hparts]⟩, h.part hs ⟨before ++ mark, [], by simp [hparts]⟩⟩

theorem partition (h : Inherited C) {mark : Text} (hs : C s) :
    C (partition mark s).1 ∧ C (partition mark s).2 := by
  unfold Text.partition
  cases hc : Text.cut? mark s with
  | none => exact ⟨hs, h.nil⟩
  | some parts => exact h.cut? hs hc

theorem splitOn (h : Inherited C) {sep : Char} {part : Text} (hs : C s) (hp : part ∈ List.splitOn sep s) :
    C part := by
  obtain ⟨first, others, hsplit, hfirst, hothers⟩ := splitOn_parts sep s
  rw [hsplit] at hp
  rcases List.mem_cons.1 hp with rfl | hp
  · exact h.part hs hfirst.isInfix
  · exact h.part hs (hothers part hp)

end Inherited

end Text

namespace Expression

open Text (Inherited isJoint)

variable {C : Text → Prop} {code : Text}

theorem inherited_parenthesized (h : Inherited C) (hc : C code) : C (parenthesized code) :=
  h.around (w := ['(']) (x := [')']) (by decide) (by decide) hc

theorem inherited_call (h : Inherited C) {function : Text} (hf : C function) (hc : C code) :
    C (function ++ parenthesized code) := by
  have hcall : C (function ++ ['('] ++ (code ++ [')'])) :=
    h.between (by decide) hf (h.before (by decide) hc)
  simpa [parenthesized] using hcall

theorem inherited_escapeCall (h : Inherited C) {handler : Text} (hh : C handler) (hc : C code) :
    C (escapeCall handler code) := by
  unfold escapeCall
  split_ifs
  · exact inherited_call h hh (h.before (by decide) hc)
  · exact inherited_call h hh hc

theorem inherited_emit (h : Inherited C) {shape : Shape} {option : Option Text}
    (hf : ∀ function, shape = .call function ∨ shape = .optionFirst function → C function)
    (hc : C code) (ho : ∀ s ∈ option, C s) : C (shape.emit code option) := by
  cases shape with
  | call function =>
    have hfunction := hf function (.inl rfl)
    cases option with
    | none => exact inherited_call h hfunction hc
    | some s => exact inherited_call h hfunction (h.between (by decide) hc (ho s rfl))
  | optionFirst function =>
    have hfunction := hf function (.inr rfl)
    cases option with
    | none => exact inherited_call h hfunction hc
    | some s => exact inherited_call h hfunction (h.between (by decide) (ho s rfl) hc)
  | thousands =>
    have hoption : C (option.getD ['0']) := by
      cases option with
      | none => exact h.word (by decide)
      | some s => exact ho s rfl
    exact h.before (by decide) (inherited_call h (h.word (by decide)) (h.between (by decide) hc hoption))

theorem inherited_link (h : Inherited C) (hc : C code) {label handler : Option Text}
    (hl : ∀ s ∈ label, C s) (hh : ∀ s ∈ handler, C s) : C (link code label handler) := by
  have hanchor : ∀ address content, C address → C content →
      C ("'<a href=\"' . ".toList ++ parenthesized address ++ " . '\">' . ".toList ++
        parenthesized content ++ " . '</a>'".toList) := by
    intro address content ha hc
    refine h.before (by decide) (h.between (by decide) (h.after (by decide) ?_) ?_)
    · exact inherited_parenthesized h ha
    · exact inherited_parenthesized h hc
  have hescaped : ∀ s, C s → C ((handler.map (escapeCall · s)).getD s) := by
    intro s hs
    cases handler with
    | none => exact hs
    | some handler => exact inherited_escapeCall h (hh handler rfl) hs
  cases label with
  | none => exact hanchor _ _ (hescaped code hc) (hescaped code hc)
  | some s =>
    refine hanchor _ _ (hescaped code hc) ?_
    cases handler with
    | none => exact hl s rfl
    | some handler => exact inherited_escapeCall h (hh handler rfl) (h.after (by decide) (hl s rfl))

def Transform.words (t : Transform) : List Text :=
  (match t.shape with
    | .call f | .optionFirst f => [f]
    | .thousands => []) ++ t.standard.toList

theorem inherited_apply (h : Inherited C) {t : Transform} (ht : ∀ w ∈ t.words, C w) (hc : C code)
    {option : Option Text} (ho : ∀ s ∈ option, C s) : C (t.apply code option) := by
  refine inherited_emit h ?_ hc ?_
  · intro function hf
    apply ht
    rcases hf with hf | hf <;> simp [Transform.words, hf]
  · cases option with
    | none =>
      intro s hs
      exact ht s (List.mem_append_right _ (Option.mem_toList.2 hs))
    | some s => exact ho

theorem words_of_filter? {p : Text → Bool} {name w : Text} {t : Transform}
    (hall : filters.all (fun entry => entry.2.casesOn (fun t => t.words.all p) true) = true)
    (h : filter? name = some (.transform t)) (hw : w ∈ t.words) : p w = true := by
  obtain ⟨before, after, hf, -⟩ := List.lookup_eq_some_iff.1 h
  have hmem : (name, Filter.transform t) ∈ filters := by simp [hf]
  exact List.all_eq_true.1 (List.all_eq_true.1 hall _ hmem) w hw

theorem isJoint_of_filter? {name w : Text} {t : Transform} (h : filter? name = some (.transform t))
    (hw : w ∈ t.words) : isJoint w = true :=
  words_of_filter? (by decide) h hw

def Segment.Has (C : Text → Prop) : Segment → Prop
  | .directive handler => ∀ s ∈ handler, C s
  | .filter f option => (∀ t, f = .transform t → ∀ w ∈ t.words, C w) ∧ ∀ s ∈ option, C s
  | .unknown _ => True

theorem inherited_splitFilter (h : Inherited C) {s : Text} (hs : C s) :
    ∀ t ∈ (splitFilter s).2, C t := by
  intro t ht
  unfold splitFilter at ht
  dsimp only at ht
  split at ht
  · cases ht
  · cases ht
    exact h.trim (h.partition hs).2

theorem inherited_read (h : Inherited C) {s : Text} (hs : C s) : (Segment.read s).Has C := by
  have hdirectives : ∀ entry ∈ directives, ∀ t ∈ entry.2, isJoint t = true := by decide
  unfold Segment.read
  split
  · next handler hd =>
    obtain ⟨before, after, hd, -⟩ := List.lookup_eq_some_iff.1 hd
    intro t ht
    exact h.word (hdirectives (Text.trim s, handler) (by simp [hd]) t ht)
  · dsimp only
    split
    · next f hf =>
      refine ⟨fun t ht w hw => ?_, inherited_splitFilter h (h.trim hs)⟩
      exact h.word (isJoint_of_filter? (ht ▸ hf) hw)
    · trivial

theorem inherited_run (h : Inherited C) {expr result : Text} {segments : List Segment}
    (hsegments : ∀ segment ∈ segments, segment.Has C) {chain : Chain} (hcode : C chain.code)
    (hhandler : ∀ s ∈ chain.handler, C s) (hrun : chain.run expr segments = .ok result) :
    C result := by
  induction segments generalizing chain with
  | nil =>
    cases hrun
    unfold Chain.result
    split
    · next handler hh =>
      split_ifs
      · exact inherited_escapeCall h (hhandler handler hh) hcode
      · exact hcode
    · exact hcode
  | cons segment rest ih =>
    have hsegment := hsegments segment (by simp)
    have hrest : ∀ segment ∈ rest, segment.Has C := fun segment hs => hsegments segment (by simp [hs])
    cases segment with
    | directive handler =>
      rw [Chain.run] at hrun
      refine ih hrest ?_ ?_ hrun
      · exact hcode
      · exact hsegment
    | unknown name => cases hrun
    | filter f option =>
      cases f with
      | link =>
        cases hrun
        exact inherited_link h hcode hsegment.2 hhandler
      | transform t =>
        rw [Chain.run] at hrun
        refine ih hrest ?_ ?_ hrun
        · exact inherited_apply h (hsegment.1 t rfl) hcode hsegment.2
        · exact hhandler

theorem inherited_compileVariable (h : Inherited C) {var : Text} (hv : C var)
    (hcompile : compileVariable var = .ok code) : C code := by
  unfold compileVariable at hcompile
  dsimp only at hcompile
  split_ifs at hcompile with _ hdollar
  · cases hcompile
    exact h.trim hv
  · cases hcompile
    exact h.after (w := ['$']) (by decide) (h.trim hv)

theorem inherited_compile (h : Inherited C) {expr : Text} (he : C expr)
    (hcompile : compile expr = .ok code) : C code := by
  have hparts : ∀ part ∈ List.splitOn '|' expr, C part := fun part hp => h.splitOn he hp
  unfold compile at hcompile
  split at hcompile
  · cases hcompile
  · next var segments hs =>
    rw [hs] at hparts
    split at hcompile
    · next start hv =>
      refine inherited_run h ?_ (inherited_compileVariable h (hparts var (by simp)) hv) ?_ hcompile
      · intro segment hsegment
        obtain ⟨part, hp, rfl⟩ := List.mem_map.1 hsegment
        exact inherited_read h (hparts part (by simp [hp]))
      · intro t ht
        cases ht
        exact h.word (by decide)
    · cases hcompile

end Expression

namespace Loop

open Text (Inherited)

variable {C : Text → Prop} {expr : Text} {loop : Loop}

theorem inherited_ofArrow (h : Inherited C) {left right : Text} (hl : C left) (hr : C right)
    (hloop : ofArrow expr left right = .ok loop) : C loop.content := by
  have hleft := h.trim hl
  have hright := h.trim hr
  unfold ofArrow at hloop
  dsimp only at hloop
  split_ifs at hloop
  split at hloop
  · next key value hcut =>
    cases hloop
    obtain ⟨hkey, hvalue⟩ := h.cut? hright hcut
    exact h.joint (by decide) (h.between (by decide) hleft (h.trim hkey)) (h.trim hvalue)
  · cases hloop
    exact h.joint (by decide) hleft hright

theorem inherited_read (h : Inherited C) (he : C expr) (hloop : read expr = .ok loop) :
    C loop.content := by
  have htrim := h.trim he
  unfold read ofTrimmed at hloop
  split_ifs at hloop
  · cases hloop
    exact htrim
  · split at hloop
    · next left right hcut =>
      obtain ⟨hl, hr⟩ := h.cut? htrim hcut
      exact inherited_ofArrow h hl hr hloop
    · cases hloop
      exact htrim

end Loop

end MarkupTemplate
