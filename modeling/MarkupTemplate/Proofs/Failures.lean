import MarkupTemplate.Proofs.LeadingInteger
import MarkupTemplate.Proofs.Observers
import MarkupTemplate.Proofs.Rendering
import MarkupTemplate.Proofs.SourceParts

/-!
# The failures of a compilation

Compiling a source comes to a template or to an error of the template, with one exception: an index of
more digits than an integer may have. That failure is met exactly where rendering gets as far as a load
element that has a target and such an index, which is to say that nothing before it fails. The failures
of trees made by hand do not occur, since a tag gives every attribute a value and no element the name of
a leaf.
-/

namespace MarkupTemplate

def Node.Label.AsRead : Node.Label → Prop
  | .element name attributes => Tag.IsName name ∧ ∀ item ∈ attributes, item.2 ≠ .missing
  | _ => True

theorem Node.Label.ReadIn.asRead {source : Text} {label : Node.Label} (h : label.ReadIn source) :
    label.AsRead := by
  cases h with
  | element _ named =>
    exact ⟨Tag.isName_read named, fun item hi => ((Tag.attributes_read _).2 item hi).2⟩
  | _ => trivial

namespace Render

/-- A load element with a target and an index of `count` digits, more than an integer may have. -/
structure Overlong (count : Nat) (name : Text) (attributes : Attributes) : Prop where
  loads : isLoad name = true
  hasTarget : ∃ value, attributes.lookup "target".toList = some (.text value) ∧ Text.trim value ≠ []
  hasIndex : ∃ value, attributes.lookup "index".toList = some (.text value) ∧
    Text.BeginsWithDigits count value
  tooMany : Text.digitLimit < count

/-- Rendering gets to an element of this name and with these attributes: all that is rendered before it,
and that includes its children, succeeds. -/
inductive Reaches (name : Text) (attributes : Attributes) : List Node → Prop
  | here {children rest : List Node} {inner : Page} (h : (renderAll children).outcome = .ok inner) :
      Reaches name attributes (.element name attributes children :: rest)
  | inside {outer : Text} {others : Attributes} {children rest : List Node}
      (h : Reaches name attributes children) :
      Reaches name attributes (.element outer others children :: rest)
  | after {node : Node} {rest : List Node} {page : Page} (hnode : (render node).outcome = .ok page)
      (h : Reaches name attributes rest) : Reaches name attributes (node :: rest)

section Load

variable {name : Text} {attributes : Attributes}

theorem exists_target_iff (name : Text) : (∃ value, target name attributes = .ok value) ↔
    ∃ value, attributes.lookup "target".toList = some (.text value) ∧ Text.trim value ≠ [] := by
  unfold target
  split
  · next value hfind =>
    rw [hfind]
    split
    · next hblank => simp [hblank]
    · next hblank => simpa using hblank
  · next hnone => simpa using fun value hfind => absurd hfind (hnone value)

theorem readIndex_eq_error_iff {index : Option AttributeValue} {e : Text.TooManyDigits} :
    readIndex index = .error e ↔ Text.digitLimit < e.count ∧
      ∃ value, index = some (.text value) ∧ Text.BeginsWithDigits e.count value := by
  unfold readIndex
  split <;> simp [Text.leadingInteger_eq_error_iff]

theorem template_of_declaration {target : Text} {index : Int} {failure : Failure}
    (hgiven : ∀ item ∈ attributes, item.2 ≠ .missing)
    (h : declaration target index attributes = .error failure) : ∃ e, failure = .template e := by
  -- media and slot fail only where an attribute was given no value
  have hfind : ∀ key, attributes.lookup key ≠ some .missing :=
    fun key hkey => hgiven _ (Attributes.mem_of_lookup hkey) rfl
  have hmedia : ∃ value, media attributes = .ok value := by
    unfold media
    split
    · split <;> exact ⟨_, rfl⟩
    · next hkey => exact absurd hkey (hfind _)
    all_goals exact ⟨_, rfl⟩
  have hslot : ∃ value, slot attributes = .ok value := by
    unfold slot
    split
    · exact ⟨_, rfl⟩
    · next hkey => exact absurd hkey (hfind _)
    all_goals exact ⟨_, rfl⟩
  obtain ⟨media, hmedia⟩ := hmedia
  obtain ⟨slot, hslot⟩ := hslot
  unfold declaration at h
  split at h
  · simp [styleSheet, hmedia] at h
  · simp only [script, hslot] at h
    split_ifs at h
    cases h
    exact ⟨_, rfl⟩
  · cases h
    exact ⟨_, rfl⟩

theorem load_of_overlong {count : Nat} (h : Overlong count name attributes) :
    load name attributes = .error (.tooManyDigits ⟨count⟩) := by
  obtain ⟨target, htarget⟩ := (exists_target_iff name).2 h.hasTarget
  have hindex := readIndex_eq_error_iff.2 ⟨h.tooMany, h.hasIndex⟩
  rw [load, htarget]
  dsimp only
  rw [hindex]

theorem load_error_cases {failure : Failure} (hload : isLoad name = true)
    (hgiven : ∀ item ∈ attributes, item.2 ≠ .missing) (h : load name attributes = .error failure) :
    (∃ e, failure = .template e) ∨
      ∃ digits, failure = .tooManyDigits digits ∧ Overlong digits.count name attributes := by
  unfold load at h
  split at h
  · cases h
    exact .inl ⟨_, rfl⟩
  · next target htarget =>
    split at h
    · next digits hindex =>
      cases h
      obtain ⟨htooMany, hindex⟩ := readIndex_eq_error_iff.1 hindex
      exact .inr ⟨digits, rfl, hload, (exists_target_iff name).1 ⟨target, htarget⟩, hindex, htooMany⟩
    · exact .inl (template_of_declaration hgiven h)

theorem element_error_cases {failure : Failure} {inner : Page}
    (hgiven : ∀ item ∈ attributes, item.2 ≠ .missing)
    (h : (element name attributes inner).outcome = .error failure) :
    (∃ e, failure = .template e) ∨
      ∃ digits, failure = .tooManyDigits digits ∧ Overlong digits.count name attributes := by
  have hplain : ∀ x : Except TemplateError Page, (Rendered.ofExcept x).outcome = .error failure →
      ∃ e, failure = .template e := by
    intro x hx
    obtain ⟨e, -, he⟩ := Rendered.outcome_ofExcept_eq_error_iff.1 hx
    exact ⟨e, he⟩
  unfold element at h
  split_ifs at h with hload
  · split at h
    · cases h
    · next e he =>
      cases h
      exact load_error_cases hload hgiven he
  all_goals exact .inl (hplain _ h)

end Load

theorem render_of_isName {name : Text} (h : Tag.IsName name) (attributes : Attributes)
    (children : List Node) :
    render (.element name attributes children) =
      (renderAll children).bind (element name attributes) := by
  rw [render_element, if_neg (Bool.eq_false_iff.1 (not_mem_leafNames h))]

/-- A failure of a tree whose labels are as tags give them is an error of the template, or the index of
a load element that rendering gets to. -/
theorem renderAll_error_cases {failure : Failure} : ∀ nodes : List Node,
    (∀ label ∈ Node.labelsAll nodes, label.AsRead) → (renderAll nodes).outcome = .error failure →
    (∃ e, failure = .template e) ∨ ∃ digits name attributes, failure = .tooManyDigits digits ∧
      Reaches name attributes nodes ∧ Overlong digits.count name attributes
  | [], _, h => by
    rw [renderAll_nil] at h
    cases h
  | node :: rest, hlabels, h => by
    rw [renderAll_cons, Rendered.outcome_bind_eq_error_iff] at h
    rcases h with hnode | ⟨page, hnode, hrest⟩
    · cases node with
      | element name attributes children =>
        have hread : Node.Label.AsRead (.element name attributes) := hlabels _ (by simp)
        rw [render_of_isName hread.1, Rendered.outcome_bind_eq_error_iff] at hnode
        -- the children are rendered first, so the element gets its turn only if they succeed
        rcases hnode with hchildren | ⟨inner, hinner, helement⟩
        · have hinside := renderAll_error_cases children (fun l hl => hlabels l (by simp [hl])) hchildren
          refine hinside.imp id ?_
          rintro ⟨digits, name, attributes, hfailure, hreaches, hlong⟩
          exact ⟨digits, name, attributes, hfailure, .inside hreaches, hlong⟩
        · refine (element_error_cases hread.2 helement).imp id ?_
          rintro ⟨digits, hfailure, hlong⟩
          exact ⟨digits, name, attributes, hfailure, .here hinner, hlong⟩
      | text data =>
        rw [render_text, Rendered.outcome_ofExcept_eq_error_iff] at hnode
        exact .inl (hnode.imp fun _ he => he.2)
      | code data =>
        rw [render_code, Rendered.outcome_ofExcept_eq_error_iff] at hnode
        exact .inl (hnode.imp fun _ he => he.2)
      | comment data =>
        rw [render_comment] at hnode
        cases hnode
    · rcases Rendered.outcome_bind_eq_error_iff.1 hrest with hrest | ⟨_, _, hpure⟩
      · have hafter := renderAll_error_cases rest (fun l hl => hlabels l (by simp [hl])) hrest
        refine hafter.imp id ?_
        rintro ⟨digits, name, attributes, hfailure, hreaches, hlong⟩
        exact ⟨digits, name, attributes, hfailure, .after hnode hreaches, hlong⟩
      · cases hpure

theorem renderAll_of_reaches {count : Nat} {name : Text} {attributes : Attributes}
    (hlong : Overlong count name attributes) {nodes : List Node}
    (hlabels : ∀ label ∈ Node.labelsAll nodes, label.AsRead)
    (h : Reaches name attributes nodes) :
    (renderAll nodes).outcome = .error (.tooManyDigits ⟨count⟩) := by
  have hload := load_of_overlong hlong
  have hfails : ∀ inner, (element name attributes inner).outcome =
      .error (.tooManyDigits ⟨count⟩) := by
    intro inner
    simp [element, hlong.loads, hload]
  induction h with
  | here hchildren =>
    have hread : Node.Label.AsRead (.element name attributes) := hlabels _ (by simp)
    rw [renderAll_cons, Rendered.outcome_bind_eq_error_iff, render_of_isName hread.1,
      Rendered.outcome_bind_eq_error_iff]
    exact .inl (.inr ⟨_, hchildren, hfails _⟩)
  | @inside outer others children rest _ ih =>
    have hread : Node.Label.AsRead (.element outer others) := hlabels _ (by simp)
    rw [renderAll_cons, Rendered.outcome_bind_eq_error_iff, render_of_isName hread.1,
      Rendered.outcome_bind_eq_error_iff]
    exact .inl (.inl (ih fun l hl => hlabels l (by simp [hl])))
  | after hnode _ ih =>
    rw [renderAll_cons, Rendered.outcome_bind_eq_error_iff]
    refine .inr ⟨_, hnode, Rendered.outcome_bind_eq_error_iff.2 (.inl ?_)⟩
    exact ih fun l hl => hlabels l (by simp [hl])

end Render

theorem outcome_generate_eq_error_iff {session : Session} {document : Document} {failure : Failure} :
    (session.generate document).outcome = .error failure ↔
      (renderAll document).outcome = .error failure := by
  cases h : (renderAll document).outcome with
  | error e => simp [Session.generate, Session.complete, Session.receive, h]
  | ok page =>
    cases hi : session.injectAssets <;>
      simp [Session.generate, Session.complete, Session.receive, h, hi]

theorem outcome_compile_eq_error_iff {options : Options} {source : Text} {failure : Failure} :
    (compile options source).outcome = .error failure ↔
      (∃ cut, options.strict = true ∧ cut ∈ (Scan.cuts source).head? ∧
        failure = .template (cutError source cut)) ∨
      ((options.strict = true → Scan.cuts source = []) ∧
        (renderAll (documentOf (tokenize source))).outcome = .error failure) := by
  rw [outcome_compile]
  cases hs : options.strict with
  | false => simp [scan_eq, map_eq_error_iff, outcome_generate_eq_error_iff]
  | true =>
    cases hc : Scan.cuts source with
    | nil => simp [scan_eq, hc, map_eq_error_iff, outcome_generate_eq_error_iff]
    | cons cut cuts => simp [scan_eq, hc, @eq_comm _ failure]

theorem TemplateError.kind_mem (e : TemplateError) :
    e.kind ∈ [ErrorKind.lexical, .structural, .security, .filter] := by
  cases e <;> simp [kind]

/-- A compilation that comes to no template fails with an error of the template of one of four kinds, or
with an index of too many digits; and the latter happens exactly where rendering gets to a load element
with a target and such an index. -/
theorem compile_failures (options : Options) (source : Text) :
    (∀ failure, (compile options source).outcome = .error failure →
      (∃ e, failure = .template e ∧
        e.kind ∈ [ErrorKind.lexical, .structural, .security, .filter]) ∨
      ∃ digits, failure = .tooManyDigits digits) ∧
    ∀ digits, (compile options source).outcome = .error (.tooManyDigits digits) ↔
      (options.strict = true → Scan.cuts source = []) ∧
        ∃ name attributes, Render.Reaches name attributes (documentOf (tokenize source)) ∧
          Render.Overlong digits.count name attributes := by
  have hlabels : ∀ label ∈ Node.labelsAll (documentOf (tokenize source)), label.AsRead :=
    fun label hl => (readIn_of_mem_labelsAll label hl).asRead
  constructor
  · intro failure h
    rcases outcome_compile_eq_error_iff.1 h with ⟨cut, -, -, rfl⟩ | ⟨-, hrender⟩
    · exact .inl ⟨_, rfl, TemplateError.kind_mem _⟩
    · rcases Render.renderAll_error_cases _ hlabels hrender with ⟨e, rfl⟩ | ⟨digits, _, _, rfl, -, -⟩
      · exact .inl ⟨e, rfl, e.kind_mem⟩
      · exact .inr ⟨digits, rfl⟩
  · intro digits
    rw [outcome_compile_eq_error_iff]
    constructor
    · rintro (⟨_, -, -, h⟩ | ⟨hstrict, hrender⟩)
      · cases h
      · refine ⟨hstrict, ?_⟩
        rcases Render.renderAll_error_cases _ hlabels hrender with ⟨e, h⟩ | ⟨_, name, attributes, h, hr⟩
        · cases h
        · cases h
          exact ⟨name, attributes, hr⟩
    · rintro ⟨hstrict, name, attributes, hreaches, hlong⟩
      exact .inr ⟨hstrict, Render.renderAll_of_reaches hlong hlabels hreaches⟩

theorem documentOf_startTag {name : Text} {attributes : Attributes}
    (h : Scan.Printable name attributes) (hname : isChildless name = true) :
    documentOf (tokenize (startTag name attributes [])) =
      [.element name (attributes.reprinted name) []] := by
  have hread := (Scan.reads_startTag h).read []
  simp only [if_pos hname, Event.markupAll_singleton, List.append_nil, Scan.eventsFrom_nil] at hread
  apply documentOf_of_eventsFrom
  · simp [Node.ProperAll, Node.Proper]
  · rw [show startTag name attributes [] = Event.markup (.single name attributes) from rfl, hread]
    simp [Event.reprinted, Node.eventsAll, Node.events, hname]

theorem Text.escape_of_isDigit {s : Text} (h : ∀ c ∈ s, isDigit c = true) : Text.escape s = s := by
  rw [Text.escape_eq_encode]
  induction s with
  | nil => rfl
  | cons c s ih =>
    have hc : isDigit c = true := h c (by simp)
    have hentity : Text.entity c = [c] := by
      apply Text.entity_of_plain
      intro hspecial
      have hall : ∀ c ∈ Text.specials, isDigit c = false := Text.forall_of_all (by decide)
      rw [hall c hspecial] at hc
      cases hc
    have hrest := ih fun d hd => h d (by simp [hd])
    simp only [Text.encode, List.flatMap_cons, hentity] at hrest ⊢
    simp [hrest]

def indexed (digits : Text) : Attributes :=
  [("target".toList, .text "a.css".toList), ("index".toList, .text digits)]

section Indexed

variable {digits : Text} (hdigits : ∀ c ∈ digits, isDigit c = true)

include hdigits

theorem printable_indexed : Scan.Printable "load".toList (indexed digits) := by
  have hlast : digits.getLast? ≠ some '\\' :=
    fun h => absurd (hdigits _ (List.mem_of_getLast? h)) (by decide)
  have hload : Tag.IsName "load".toList := ⟨by decide, Text.forall_of_all (by decide +kernel)⟩
  have htarget : Tag.IsName "target".toList := ⟨by decide, Text.forall_of_all (by decide +kernel)⟩
  have hindex : Tag.IsName "index".toList := ⟨by decide, Text.forall_of_all (by decide +kernel)⟩
  refine ⟨hload, by simp [indexed], fun item hi => ?_⟩
  simp only [indexed, List.mem_cons, List.not_mem_nil, or_false] at hi
  rcases hi with rfl | rfl
  · exact ⟨htarget, by simp, by rintro _ ⟨⟩; decide⟩
  · exact ⟨hindex, by simp, by rintro _ ⟨⟩; exact hlast⟩

theorem reprinted_indexed : (indexed digits).reprinted "load".toList = indexed digits := by
  have htarget : Text.escape "a.css".toList = "a.css".toList := by decide
  have hnames : ∀ item ∈ indexed digits, (Text.lower item.1 != Text.lower "load".toList) = true := by
    intro item hi
    simp only [indexed, List.mem_cons, List.not_mem_nil, or_false] at hi
    rcases hi with rfl | rfl <;> rfl
  rw [Attributes.reprinted, List.filter_eq_self.2 hnames]
  simp only [indexed, Attributes.escaped, List.map_cons, List.map_nil, AttributeValue.escaped,
    htarget, Text.escape_of_isDigit hdigits]

theorem overlong_indexed (hmany : Text.digitLimit < digits.length) :
    Render.Overlong digits.length "load".toList (indexed digits) := by
  refine ⟨by decide, ⟨"a.css".toList, rfl, by decide⟩, ⟨digits, rfl, ?_⟩, hmany⟩
  exact ⟨[], [], digits, [], by simp, by simp, by simp, hdigits, by simp, rfl⟩

theorem compile_indexed (hmany : Text.digitLimit < digits.length) :
    (compile {} (startTag "load".toList (indexed digits) [])).outcome =
      .error (.tooManyDigits ⟨digits.length⟩) := by
  have hprintable := printable_indexed hdigits
  rw [outcome_compile_eq_error_iff]
  refine .inr ⟨fun hs => absurd hs (by decide), ?_⟩
  rw [documentOf_startTag hprintable (by decide), reprinted_indexed hdigits]
  refine Render.renderAll_of_reaches (overlong_indexed hdigits hmany) ?_ (.here rfl)
  intro label hl
  simp only [Node.labelsAll_cons, Node.labels_element, Node.labelsAll_nil, List.append_nil,
    List.mem_singleton] at hl
  rw [hl]
  exact ⟨hprintable.name, fun item hi => (hprintable.writable item hi).given⟩

end Indexed

theorem not_forall_compile_template_error :
    ¬ ∀ options source, (∃ template, (compile options source).outcome = .ok template) ∨
      ∃ e, (compile options source).outcome = .error (.template e) := by
  intro h
  have hdigits : ∀ c ∈ List.replicate 4301 '1', isDigit c = true :=
    fun c hc => List.eq_of_mem_replicate hc ▸ by decide
  have hfails := compile_indexed hdigits (by rw [List.length_replicate]; decide)
  rcases h _ _ with ⟨template, ht⟩ | ⟨e, he⟩
  · exact nomatch hfails.symm.trans ht
  · exact nomatch hfails.symm.trans he

end MarkupTemplate
