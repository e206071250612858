import MarkupTemplate.Proofs.DocumentOrder

/-!
# Diagnostics account for tags

Opening tags of elements that can have children, and closing tags, are the brackets among the tokens. An
opening one makes the stack of open elements longer by one. A closing one either finds its element and
takes it off the stack, with a note for each element it takes along, or it is noted itself and changes
nothing; the end of input notes what is left. So opened elements and unexpected ends together are as many
as closing tags and unclosed elements together. Nothing is noted exactly if each closing tag finds its
element innermost and none is left, which is to say that the brackets are well nested.
-/

namespace MarkupTemplate

inductive Bracket
  | opening (name : Text)
  | closing (name : Text)
deriving DecidableEq

def Lexeme.bracket? : Lexeme → Option Bracket
  | tag _ t =>
    if t.name.isEmpty then none
    else if t.closing then
      if isLoad t.name || isUnload t.name then none else some (.closing t.name)
    else if t.selfClosing || isChildless t.name then none
    else some (.opening t.name)
  | _ => none

def brackets (tokens : List Token) : List Bracket :=
  tokens.filterMap fun token => token.lexeme.bracket?

theorem brackets_cons (token : Token) (tokens : List Token) :
    brackets (token :: tokens) = token.lexeme.bracket?.toList ++ brackets tokens := by
  cases h : token.lexeme.bracket? <;> simp [brackets, h]

theorem kind_of_bracket? {token : Token} {name : Text}
    (h : token.lexeme.bracket? = some (.closing name)) : token.kind = .closeTag := by
  obtain ⟨lexeme, position⟩ := token
  cases lexeme with
  | tag raw t =>
    simp only [Lexeme.bracket?] at h
    split_ifs at h with _ hclosing
    · simp [Token.kind, hclosing]
    · cases h
  | _ => cases h

namespace Bracket

def isOpening : Bracket → Bool
  | opening _ => true
  | closing _ => false

def isClosing : Bracket → Bool
  | opening _ => false
  | closing _ => true

/-- Every bracket has its partner, of the same name in any letter case, and pairs do not cross. -/
inductive WellNested : List Bracket → Prop
  | nil : WellNested []
  | append {a b : List Bracket} : WellNested a → WellNested b → WellNested (a ++ b)
  | pair {first last : Text} {inside : List Bracket} : Text.lower first = Text.lower last →
      WellNested inside → WellNested (opening first :: inside ++ [closing last])

/-- Read from left to right with a stack, `word` closes the elements in `names`, innermost first, and all
that it opens. -/
def Closes : List Text → List Bracket → Prop
  | names, [] => names = []
  | names, opening name :: word => Closes (name :: names) word
  | [], closing _ :: _ => False
  | inner :: outer, closing name :: word => Text.lower inner = Text.lower name ∧ Closes outer word

theorem WellNested.closes_append {inside : List Bracket} (h : WellNested inside) (names : List Text)
    (word : List Bracket) : Closes names (inside ++ word) ↔ Closes names word := by
  induction h generalizing names word with
  | nil => exact Iff.rfl
  | append _ _ iha ihb =>
    rw [List.append_assoc]
    exact (iha names _).trans (ihb names word)
  | @pair first last inside hname _ ih =>
    have hinside := ih (first :: names) (closing last :: word)
    simpa [Closes, hname] using hinside

theorem Closes.exists_partner {inner : Text} {outer : List Text} {word : List Bracket}
    (h : Closes (inner :: outer) word) :
    ∃ inside last rest, word = inside ++ closing last :: rest ∧ WellNested inside ∧
      Text.lower inner = Text.lower last ∧ Closes outer rest := by
  -- an element opened on the way is closed first, and what follows its partner is shorter
  induction hn : word.length using Nat.strong_induction_on generalizing inner outer word with
  | _ n ih =>
    cases word with
    | nil => exact absurd h (List.cons_ne_nil inner outer)
    | cons bracket word =>
      simp only [List.length_cons] at hn
      cases bracket with
      | closing last => exact ⟨[], last, word, rfl, .nil, h.1, h.2⟩
      | opening first =>
        have hopened : Closes (first :: inner :: outer) word := h
        obtain ⟨inside, last, rest, hword, hinside, hname, hrest⟩ :=
          ih word.length (by omega) hopened rfl
        have hshorter : rest.length < n := by
          simp only [hword, List.length_append, List.length_cons] at hn
          omega
        obtain ⟨next, partner, after, hafter, hnext, hpartner, hclosed⟩ :=
          ih rest.length hshorter hrest rfl
        have hpair : WellNested (opening first :: inside ++ [closing last] ++ next) :=
          .append (.pair hname hinside) hnext
        refine ⟨_, partner, after, ?_, hpair, hpartner, hclosed⟩
        simp [hword, hafter]

theorem wellNested_iff_closes {word : List Bracket} : WellNested word ↔ Closes [] word := by
  constructor
  · intro h
    have hall := h.closes_append [] []
    rw [List.append_nil] at hall
    exact hall.mpr rfl
  · intro h
    induction hn : word.length using Nat.strong_induction_on generalizing word with
    | _ n ih =>
      cases word with
      | nil => exact .nil
      | cons bracket word =>
        cases bracket with
        | closing last => exact h.elim
        | opening first =>
          obtain ⟨inside, last, rest, hword, hinside, hname, hrest⟩ := Closes.exists_partner h
          have hshorter : rest.length < n := by
            simp only [hword, List.length_cons, List.length_append] at hn
            omega
          have hpair : WellNested (opening first :: inside ++ [closing last] ++ rest) :=
            .append (.pair hname hinside) (ih rest.length hshorter hrest rfl)
          simpa [hword] using hpair

end Bracket

namespace Diagnostic

def unclosedCode : Text :=
  "unclosed-element".toList

def unexpectedCode : Text :=
  "unexpected-end-tag".toList

def count (code : Text) (ds : List Diagnostic) : Nat :=
  ds.countP fun d => d.code == code

theorem unclosedCode_ne : unclosedCode ≠ unexpectedCode := by
  decide

theorem count_append (code : Text) (ds es : List Diagnostic) :
    count code (ds ++ es) = count code ds + count code es :=
  List.countP_append

theorem count_self {code : Text} {ds : List Diagnostic} (h : ∀ d ∈ ds, d.code = code) :
    count code ds = ds.length := by
  apply List.countP_eq_length.mpr
  intro d hd
  exact beq_iff_eq.mpr (h d hd)

theorem count_other {code other : Text} {ds : List Diagnostic} (hne : other ≠ code)
    (h : ∀ d ∈ ds, d.code = other) : count code ds = 0 := by
  apply List.countP_eq_zero.mpr
  intro d hd heq
  exact hne ((h d hd).symm.trans (beq_iff_eq.mp heq))

end Diagnostic

open Diagnostic (count unclosedCode unexpectedCode unclosedCode_ne count_append count_self count_other)

namespace Builder

theorem insideOf?_eq_some {name : Text} {path skipped : List OpenElement}
    (h : insideOf? name path = some skipped) :
    ∃ target outer, path = skipped ++ target :: outer ∧ Text.lower target.name = Text.lower name ∧
      ∀ e ∈ skipped, Text.lower e.name ≠ Text.lower name := by
  induction path generalizing skipped with
  | nil => cases h
  | cons inner outer ih =>
    rw [insideOf?] at h
    split_ifs at h with hname
    · cases h
      exact ⟨inner, outer, rfl, hname, by simp⟩
    · obtain ⟨more, hmore, rfl⟩ := Option.map_eq_some_iff.mp h
      obtain ⟨target, rest, rfl, htarget, hskipped⟩ := ih hmore
      exact ⟨target, rest, rfl, htarget, List.forall_mem_cons.mpr ⟨hname, hskipped⟩⟩

theorem insideOf?_eq_none {name : Text} {path : List OpenElement} (h : insideOf? name path = none) :
    ∀ e ∈ path, Text.lower e.name ≠ Text.lower name := by
  induction path with
  | nil => simp
  | cons inner outer ih =>
    rw [insideOf?] at h
    split_ifs at h with hname
    exact List.forall_mem_cons.mpr ⟨hname, ih (Option.map_eq_none_iff.mp h)⟩

/-- What a token at `position` does while the elements in `names` are open: the elements open after it,
and what is noted. -/
inductive Accounts (names : List Text) (position : Nat) :
    Option Bracket → List Text → List Diagnostic → Prop
  | other : Accounts names position none names []
  | opening (name : Text) : Accounts names position (some (.opening name)) (name :: names) []
  | closing {name target : Text} {skipped : List OpenElement} {outer : List Text} :
      names = skipped.map (·.name) ++ target :: outer → Text.lower target = Text.lower name →
      (∀ e ∈ skipped, Text.lower e.name ≠ Text.lower name) →
      Accounts names position (some (.closing name)) outer
        (skipped.reverse.map fun e => closedByTag position name e.name)
  | unexpected {name : Text} : (∀ n ∈ names, Text.lower n ≠ Text.lower name) →
      Accounts names position (some (.closing name)) names [unexpectedEndTag position name]

theorem accounts_close {builder : Builder} (hc : builder.collect = true) (name : Text)
    (position : Nat) :
    ∃ noted, (builder.close name position).diagnostics = builder.diagnostics ++ noted ∧
      Accounts builder.names position (some (.closing name)) (builder.close name position).names
        noted := by
  unfold close
  cases hi : insideOf? name builder.path with
  | none =>
    refine ⟨[unexpectedEndTag position name], by simp [note, hc], ?_⟩
    have hnames : (builder.note (unexpectedEndTag position name)).names = builder.names :=
      names_noteAll builder [unexpectedEndTag position name]
    dsimp only
    rw [hnames]
    apply Accounts.unexpected
    simpa [names] using insideOf?_eq_none hi
  | some skipped =>
    obtain ⟨target, outer, hpath, htarget, hskipped⟩ := insideOf?_eq_some hi
    have hnames : builder.names = skipped.map (·.name) ++ target.name :: outer.map (·.name) := by
      simp [names, hpath]
    refine ⟨skipped.reverse.map fun e => closedByTag position name e.name, ?_, ?_⟩
    · dsimp only
      rw [diagnostics_leaveTimes, noteAll_eq, if_pos hc]
    · have houter : builder.names.drop (skipped.length + 1) = outer.map (·.name) := by
        rw [hnames, List.drop_append]
        simp
      dsimp only
      rw [names_leaveTimes, names_noteAll, houter]
      exact .closing hnames htarget hskipped

theorem accounts_add {builder : Builder} (hc : builder.collect = true) (token : Token) :
    ∃ noted, (builder.add token).diagnostics = builder.diagnostics ++ noted ∧
      Accounts builder.names token.position token.lexeme.bracket? (builder.add token).names noted := by
  obtain ⟨lexeme, position⟩ := token
  have hleaf : ∀ node, ∃ noted,
      (builder.append node).diagnostics = builder.diagnostics ++ noted ∧
        Accounts builder.names position none (builder.append node).names noted := by
    intro node
    refine ⟨[], by simp [diagnostics_append], ?_⟩
    rw [names_append]
    exact .other
  cases lexeme with
  | text data => exact hleaf _
  | comment data => exact hleaf _
  | code raw => exact hleaf _
  | tag raw t =>
    simp only [add, addTag, Lexeme.bracket?]
    split_ifs
    · exact hleaf _
    · exact ⟨[], by simp, .other⟩
    · exact accounts_close hc _ _
    · exact hleaf _
    · exact ⟨[], by simp [enter], .opening _⟩

theorem collect_add (builder : Builder) (token : Token) :
    (builder.add token).collect = builder.collect :=
  (notes_add builder token).1

theorem count_map_unclosed (note : OpenElement → Diagnostic) (h : ∀ e, (note e).code = unclosedCode)
    (elements : List OpenElement) :
    count unclosedCode (elements.map note) = elements.length ∧
      count unexpectedCode (elements.map note) = 0 := by
  have hcode : ∀ d ∈ elements.map note, d.code = unclosedCode := by
    intro d hd
    obtain ⟨e, -, rfl⟩ := List.mem_map.mp hd
    exact h e
  have hlength := count_self hcode
  rw [List.length_map] at hlength
  exact ⟨hlength, count_other unclosedCode_ne hcode⟩

section Step

variable {names after : List Text} {position : Nat} {bracket : Option Bracket}
  {noted : List Diagnostic}

theorem Accounts.balance (h : Accounts names position bracket after noted) :
    names.length + bracket.toList.countP Bracket.isOpening + count unexpectedCode noted =
      bracket.toList.countP Bracket.isClosing + count unclosedCode noted + after.length := by
  cases h with
  | other => simp [count]
  | opening name => simp [count, Bracket.isOpening, Bracket.isClosing]
  | @closing name target skipped outer hnames _ _ =>
    have hlength : names.length = skipped.length + (after.length + 1) := by
      simp [hnames]
    have hnoted :=
      count_map_unclosed (fun e => closedByTag position name e.name) (fun _ => rfl) skipped.reverse
    have hopening : (some (Bracket.closing name)).toList.countP Bracket.isOpening = 0 := rfl
    have hclosing : (some (Bracket.closing name)).toList.countP Bracket.isClosing = 1 := rfl
    rw [hnoted.1, hnoted.2, List.length_reverse]
    omega
  | @unexpected name _ =>
    have hcode : ∀ d ∈ [unexpectedEndTag position name], d.code = unexpectedCode := by
      intro d hd
      rw [List.mem_singleton.mp hd]
      rfl
    have hunclosed := count_other unclosedCode_ne.symm hcode
    have hopening : (some (Bracket.closing name)).toList.countP Bracket.isOpening = 0 := rfl
    have hclosing : (some (Bracket.closing name)).toList.countP Bracket.isClosing = 1 := rfl
    rw [count_self hcode, hunclosed, List.length_singleton]
    omega

theorem Accounts.position_of_mem (h : Accounts names position bracket after noted) {d : Diagnostic}
    (hd : d ∈ noted) : d.position = some (position : Int) ∧ ∃ name, bracket = some (.closing name) := by
  cases h with
  | other => simp at hd
  | opening name => simp at hd
  | @closing name target skipped outer _ _ _ =>
    obtain ⟨e, -, rfl⟩ := List.mem_map.mp hd
    exact ⟨rfl, name, rfl⟩
  | @unexpected name _ =>
    rw [List.mem_singleton.mp hd]
    exact ⟨rfl, name, rfl⟩

theorem Accounts.closes_iff (h : Accounts names position bracket after noted) (word : List Bracket) :
    Bracket.Closes names (bracket.toList ++ word) ↔ noted = [] ∧ Bracket.Closes after word := by
  cases h with
  | other => simp
  | opening name => simp [Bracket.Closes]
  | @closing name target skipped outer hnames htarget hskipped =>
    cases skipped with
    | nil => simp [hnames, Bracket.Closes, htarget]
    | cons e skipped =>
      have he : Text.lower e.name ≠ Text.lower name := hskipped e List.mem_cons_self
      simp [hnames, Bracket.Closes, he]
  | @unexpected name hnone =>
    cases names with
    | nil => simp [Bracket.Closes]
    | cons inner outer =>
      have hinner : Text.lower inner ≠ Text.lower name := hnone inner List.mem_cons_self
      simp [Bracket.Closes, hinner]

end Step

theorem balance_addAll (builder : Builder) (hc : builder.collect = true) (tokens : List Token) :
    builder.names.length + (brackets tokens).countP Bracket.isOpening +
        count unexpectedCode (builder.addAll tokens).diagnostics +
        count unclosedCode builder.diagnostics =
      (brackets tokens).countP Bracket.isClosing +
        count unclosedCode (builder.addAll tokens).diagnostics +
        count unexpectedCode builder.diagnostics + (builder.addAll tokens).names.length := by
  induction tokens generalizing builder with
  | nil => simp [addAll, brackets]; omega
  | cons token tokens ih =>
    obtain ⟨noted, hnoted, haccounts⟩ := accounts_add hc token
    have hstep := haccounts.balance
    have hrest := ih (builder.add token) ((collect_add builder token).trans hc)
    have hbrackets : brackets (token :: tokens) = token.lexeme.bracket?.toList ++ brackets tokens :=
      brackets_cons token tokens
    have haddAll : builder.addAll (token :: tokens) = (builder.add token).addAll tokens := rfl
    rw [hnoted, count_append, count_append] at hrest
    rw [hbrackets, haddAll, List.countP_append, List.countP_append]
    omega

theorem mem_diagnostics_addAll {builder : Builder} (hc : builder.collect = true)
    {tokens : List Token} {d : Diagnostic} (hd : d ∈ (builder.addAll tokens).diagnostics) :
    d ∈ builder.diagnostics ∨
      ∃ token ∈ tokens, token.kind = .closeTag ∧ d.position = some (token.position : Int) := by
  induction tokens generalizing builder with
  | nil => exact .inl hd
  | cons token tokens ih =>
    obtain ⟨noted, hnoted, haccounts⟩ := accounts_add hc token
    have hrest := ih ((collect_add builder token).trans hc) hd
    rw [hnoted, List.mem_append] at hrest
    rcases hrest with (hbefore | hnew) | ⟨later, hlater, hkind, hposition⟩
    · exact .inl hbefore
    · obtain ⟨hposition, name, hclosing⟩ := haccounts.position_of_mem hnew
      exact .inr ⟨token, List.mem_cons_self, kind_of_bracket? hclosing, hposition⟩
    · exact .inr ⟨later, List.mem_cons_of_mem token hlater, hkind, hposition⟩

theorem diagnostics_addAll_eq_nil_iff (builder : Builder) (hc : builder.collect = true)
    (tokens : List Token) :
    (builder.addAll tokens).diagnostics = [] ∧ (builder.addAll tokens).names = [] ↔
      builder.diagnostics = [] ∧ Bracket.Closes builder.names (brackets tokens) := by
  induction tokens generalizing builder with
  | nil => exact Iff.rfl
  | cons token tokens ih =>
    obtain ⟨noted, hnoted, haccounts⟩ := accounts_add hc token
    have hrest := ih (builder.add token) ((collect_add builder token).trans hc)
    have haddAll : builder.addAll (token :: tokens) = (builder.add token).addAll tokens := rfl
    rw [haddAll, hrest, hnoted, brackets_cons, haccounts.closes_iff, List.append_eq_nil_iff, and_assoc]

theorem diagnostics_finish {builder : Builder} (hc : builder.collect = true) :
    builder.finish.diagnostics =
      builder.diagnostics ++ builder.path.reverse.map fun e => closedByEnd e.name := by
  rw [finish, diagnostics_leaveTimes, noteAll_eq, if_pos hc]

end Builder

structure Accounted (tokens : List Token) (ds : List Diagnostic) : Prop where
  balance : (brackets tokens).countP Bracket.isOpening + count unexpectedCode ds =
    (brackets tokens).countP Bracket.isClosing + count unclosedCode ds
  places : ∀ d ∈ ds, ∀ position, d.position = some position →
    ∃ token ∈ tokens, token.kind = .closeTag ∧ position = token.position
  clean : ds = [] ↔ Bracket.WellNested (brackets tokens)

theorem accounted_build (tokens : List Token) : Accounted tokens (build true tokens).diagnostics := by
  have hcollect : ((Builder.start true).addAll tokens).collect = true :=
    (Builder.notes_addAll (Builder.start true) tokens).1
  have hfinish := Builder.diagnostics_finish hcollect
  refine ⟨?_, ?_, ?_⟩
  · have hrun := Builder.balance_addAll (Builder.start true) rfl tokens
    have hend := Builder.count_map_unclosed (fun e => Builder.closedByEnd e.name) (fun _ => rfl)
      ((Builder.start true).addAll tokens).path.reverse
    have hopen : ((Builder.start true).addAll tokens).names.length =
        ((Builder.start true).addAll tokens).path.reverse.length := by
      simp [Builder.names]
    have hnone : ∀ code, count code (Builder.start true).diagnostics = 0 := fun _ => rfl
    have hempty : (Builder.start true).names.length = 0 := rfl
    rw [build, hfinish, count_append, count_append, hend.1, hend.2]
    rw [hnone, hnone, hopen, hempty] at hrun
    omega
  · intro d hd position hposition
    rw [build, hfinish, List.mem_append] at hd
    rcases hd with hd | hd
    · rcases Builder.mem_diagnostics_addAll rfl hd with hstart | ⟨token, htoken, hkind, hplace⟩
      · cases hstart
      · rw [hposition] at hplace
        exact ⟨token, htoken, hkind, Option.some.inj hplace⟩
    · -- what the end of input closes has no position
      obtain ⟨e, -, rfl⟩ := List.mem_map.mp hd
      cases hposition
  · have hrun := Builder.diagnostics_addAll_eq_nil_iff (Builder.start true) rfl tokens
    rw [build, hfinish, Bracket.wellNested_iff_closes, List.append_eq_nil_iff]
    simpa [Builder.names, Builder.start] using hrun

end MarkupTemplate
