import MarkupTemplate.Proofs.HostOpening
import MarkupTemplate.Proofs.Rendering
import MarkupTemplate.Proofs.SourceParts

/-!
# Where blocks of the host language open in a page

In a page that is compiled from a source without blocks of its own, blocks open only where the compiler
opens them. What the chunks of the page hold opens none, and none arises where two chunks meet: for that
a chunk would have to end in a bracket, and the next text to begin with a question mark. Raw-code markers
that hold nothing leave no trace in the page, so whatever stood on both sides of one meets as well.
-/

namespace MarkupTemplate

def Chunk.inner : Chunk → Text
  | .markup text => text
  | .code body => body
  | .print expr => expr
  | .openIf condition => condition
  | .openLoop loop => loop.content
  | .closeIf | .closeLoop _ => []

theorem Loop.words (loop : Loop) :
    (loop.keyword = "foreach(".toList ∧ loop.closing = "<?php endforeach; ?>".toList) ∨
      (loop.keyword = "for(".toList ∧ loop.closing = "<?php endfor; ?>".toList) := by
  cases loop with
  | counted expr => exact .inr ⟨rfl, rfl⟩
  | _ => exact .inl ⟨rfl, rfl⟩

theorem Chunk.text_of_block {chunk : Chunk} (hblock : ∀ s, chunk ≠ .markup s) :
    ∃ r, chunk.text = '<' :: (r ++ ['>']) ∧ (chunk.inner.Clear → Text.Clear (r ++ ['>'])) := by
  cases chunk with
  | markup s => exact absurd rfl (hblock s)
  | code body =>
    refine ⟨"?php\n".toList ++ body ++ "\n?".toList, ?_, fun h => ?_⟩
    · change "<?php\n".toList ++ body ++ "\n?>".toList = _
      simp
    · change Text.Clear body at h
      simp [h]
  | print expr =>
    refine ⟨"?= ".toList ++ expr ++ " ?".toList, ?_, fun h => ?_⟩
    · change "<?= ".toList ++ expr ++ " ?>".toList = _
      simp
    · change Text.Clear expr at h
      simp [h]
  | openIf condition =>
    refine ⟨"?php if(".toList ++ condition ++ "): ?".toList, ?_, fun h => ?_⟩
    · change "<?php if(".toList ++ condition ++ "): ?>".toList = _
      simp
    · change Text.Clear condition at h
      simp [h]
  | openLoop loop =>
    refine ⟨"?php ".toList ++ loop.keyword ++ loop.content ++ "): ?".toList, ?_, fun h => ?_⟩
    · change loop.opening = _
      rw [loop.opening_eq]
      simp
    · change Text.Clear loop.content at h
      rcases loop.words with ⟨hk, -⟩ | ⟨hk, -⟩ <;> simp [hk, h]
  | closeIf => exact ⟨"?php endif; ?".toList, rfl, fun _ => Text.clear_of_not_mem (by decide)⟩
  | closeLoop loop =>
    change ∃ r, loop.closing = '<' :: (r ++ ['>']) ∧ _
    rcases loop.words with ⟨-, hc⟩ | ⟨-, hc⟩ <;> rw [hc]
    · exact ⟨"?php endforeach; ?".toList, rfl, fun _ => Text.clear_of_not_mem (by decide)⟩
    · exact ⟨"?php endfor; ?".toList, rfl, fun _ => Text.clear_of_not_mem (by decide)⟩

theorem Chunk.ends_of_block {chunk : Chunk} (hblock : ∀ s, chunk ≠ .markup s) :
    chunk.text.head? = some '<' ∧ chunk.text.getLast? = some '>' := by
  obtain ⟨r, hr, -⟩ := Chunk.text_of_block hblock
  rw [hr]
  exact ⟨rfl, List.getLast?_concat (l := '<' :: r)⟩

namespace Page

/-- No block opens in what the chunks hold, and none where one chunk meets the text after it. -/
def Tidy : Page → Prop
  | [] => True
  | chunk :: page =>
    chunk.inner.Clear ∧ ¬ (chunk.text.getLast? = some '<' ∧ (text page).head? = some '?') ∧ Tidy page

structure Safe (page : Page) : Prop where
  tidy : page.Tidy
  head : (text page).head? ≠ some '?'

variable {a b : Page} {chunk : Chunk}

theorem text_cons (chunk : Chunk) (page : Page) : text (chunk :: page) = chunk.text ++ text page :=
  rfl

theorem Tidy.append (ha : a.Tidy) (hb : b.Tidy)
    (hjoint : ¬ ((text a).getLast? = some '<' ∧ (text b).head? = some '?')) : Tidy (a ++ b) := by
  induction a with
  | nil => exact hb
  | cons chunk a ih =>
    obtain ⟨hinner, hnext, hrest⟩ := ha
    rw [text_cons] at hjoint
    have hnil : text a = [] → ¬ (chunk.text.getLast? = some '<' ∧ (text b).head? = some '?') := by
      intro ht
      simpa [ht] using hjoint
    refine ⟨hinner, fun ⟨hlast, hhead⟩ => ?_, ih hrest fun ⟨hlast, hhead⟩ => hjoint ⟨?_, hhead⟩⟩
    · change (text (a ++ b)).head? = some '?' at hhead
      rw [text_append, List.head?_append] at hhead
      -- where nothing is left of the first page, the chunk meets the second one
      cases ht : text a with
      | nil => exact hnil ht ⟨hlast, by simpa [ht] using hhead⟩
      | cons c s => exact hnext ⟨hlast, by simpa [ht] using hhead⟩
    · rw [List.getLast?_append, hlast]
      rfl

namespace Safe

theorem nil : Safe [] :=
  ⟨trivial, by simp⟩

theorem append (ha : a.Safe) (hb : b.Safe) : Safe (a ++ b) := by
  refine ⟨ha.tidy.append hb.tidy fun h => hb.head h.2, ?_⟩
  rw [text_append, List.head?_append]
  cases ht : (text a).head? with
  | none => exact hb.head
  | some c => exact fun h => ha.head (ht.trans h)

theorem singleton (hinner : chunk.inner.Clear) (hhead : chunk.text.head? ≠ some '?') :
    Safe [chunk] := by
  refine ⟨⟨hinner, by simp, trivial⟩, ?_⟩
  rw [text_cons, text_nil, List.append_nil]
  exact hhead

theorem markup {s : Text} (h : Text.Clear s) (hhead : s.head? ≠ some '?') : Safe [.markup s] :=
  singleton h hhead

theorem block (hblock : ∀ s, chunk ≠ .markup s) (hinner : chunk.inner.Clear) : Safe [chunk] := by
  refine singleton hinner ?_
  simp [(Chunk.ends_of_block hblock).1]

end Safe

end Page

namespace Marker

def source : Marker → Text
  | .code body => '{' :: '@' :: (body ++ ['}'])
  | .print expr => '{' :: '$' :: (expr ++ ['}'])

def isVoid : Marker → Bool
  | .code body => (Text.trim body).isEmpty
  | .print _ => false

theorem source_append_of_read? {s rest : Text} {m : Marker} (h : read? s = some (m, rest)) :
    s = m.source ++ rest := by
  unfold read? at h
  split at h
  · obtain ⟨⟨body, r⟩, hcut, he⟩ := Option.map_eq_some_iff.1 h
    cases he
    simp [source, Text.append_of_cut? hcut]
  · split at h
    · next hcut =>
      cases h
      simp [source, Text.append_of_cut? hcut]
    · cases h
  · cases h

/-- A text without the markers that hold no code. All else stays as it is written. -/
def withoutVoid (s : Text) : Text :=
  match s with
  | [] => []
  | c :: s =>
    match _h : read? (c :: s) with
    | some (marker, rest) => (if marker.isVoid then [] else marker.source) ++ withoutVoid rest
    | none => c :: withoutVoid s
termination_by s.length
decreasing_by
  · exact length_read? _h
  · simp

theorem withoutVoid_of_read? {s rest : Text} {m : Marker} (h : read? s = some (m, rest)) :
    withoutVoid s = (if m.isVoid then [] else m.source) ++ withoutVoid rest := by
  cases s with
  | nil => cases h
  | cons c s =>
    rw [withoutVoid]
    split
    · next m' rest' h' =>
      cases h.symm.trans h'
      rfl
    · next h' => cases h.symm.trans h'

theorem withoutVoid_cons {c : Char} {s : Text} (h : read? (c :: s) = none) :
    withoutVoid (c :: s) = c :: withoutVoid s := by
  rw [withoutVoid]
  split
  · next h' => cases h.symm.trans h'
  · rfl

theorem withoutVoid_eq_self {s : Text} (h : ¬ ['{', '@'] <:+: s) : withoutVoid s = s := by
  fun_induction withoutVoid s with
  | case1 => rfl
  | case2 c s marker rest hread ih =>
    have hs := source_append_of_read? hread
    have hvoid : marker.isVoid = false := by
      cases marker with
      | code body => exact absurd ⟨[], body ++ ['}'] ++ rest, by simp [hs, source]⟩ h
      | print expr => rfl
    have hrest : ¬ ['{', '@'] <:+: rest := fun hi => h (hi.trans ⟨marker.source, [], by simp [hs]⟩)
    simp [hvoid, ih hrest, hs]
  | case3 c s hread ih =>
    rw [ih fun hi => h (hi.trans (List.suffix_cons c s).isInfix)]

theorem page_cases {m : Marker} {page : Page} (hm : m.source.Clear) (h : m.page = .ok page) :
    (m.isVoid = true ∧ page = []) ∨
      ∃ chunk, page = [chunk] ∧ (∀ s, chunk ≠ .markup s) ∧ chunk.inner.Clear := by
  cases m with
  | code body =>
    have hbody : Text.Clear body := hm.of_infix ⟨['{', '@'], ['}'], rfl⟩
    rcases hostCode_eq_ok h with ⟨hvoid, rfl⟩ | ⟨-, rfl⟩
    · exact .inl ⟨List.isEmpty_iff.2 hvoid, rfl⟩
    · exact .inr ⟨_, rfl, by simp, Text.inherited_clear.trim hbody⟩
  | print expr =>
    have hexpr : Text.Clear expr := hm.of_infix ⟨['{', '$'], ['}'], rfl⟩
    obtain ⟨compiled, hcompiled, -, rfl⟩ := page_print_eq_ok h
    have hclear := Text.inherited_clear.trim hexpr
    exact .inr ⟨_, rfl, by simp, Expression.inherited_compile Text.inherited_clear hclear hcompiled⟩

end Marker

namespace Renders

open Marker (withoutVoid)

variable {s : Text} {page : Page}

theorem head_withoutVoid (h : Renders s page) (hs : s.Clear)
    (hhead : (Page.text page).head? = some '?') : (withoutVoid s).head? = some '?' := by
  induction h with
  | nil => cases hhead
  | @marker s rest m first last hread hfirst _ ih =>
    have hwhole := Marker.source_append_of_read? hread
    have hsource := hs.of_infix ⟨[], rest, by simpa using hwhole.symm⟩
    rcases Marker.page_cases hsource hfirst with ⟨hvoid, rfl⟩ | ⟨chunk, rfl, hblock, hinner⟩
    · rw [Marker.withoutVoid_of_read? hread]
      simpa [hvoid] using ih (hs.of_infix ⟨m.source, [], by simp [hwhole]⟩) hhead
    · simp [Page.text_cons, (Chunk.ends_of_block hblock).1] at hhead
  | char hread _ _ =>
    rw [Marker.withoutVoid_cons hread]
    exact hhead

theorem tidy (h : Renders s page) (hs : s.Clear) (hvoid : (withoutVoid s).Clear) : page.Tidy := by
  induction h with
  | nil => trivial
  | @marker s rest m first last hread hfirst _ ih =>
    have hwhole := Marker.source_append_of_read? hread
    have hsource := hs.of_infix ⟨[], rest, by simpa using hwhole.symm⟩
    rw [Marker.withoutVoid_of_read? hread] at hvoid
    have hlast := ih (hs.of_infix ⟨m.source, [], by simp [hwhole]⟩)
      (hvoid.of_infix (List.suffix_append _ _).isInfix)
    rcases Marker.page_cases hsource hfirst with ⟨-, rfl⟩ | ⟨chunk, rfl, hblock, hinner⟩
    · exact hlast
    · refine ⟨hinner, fun hjoint => ?_, hlast⟩
      simp [(Chunk.ends_of_block hblock).2] at hjoint
  | @char c s last hread hlast ih =>
    have hrest := hs.of_infix (List.suffix_cons c s).isInfix
    -- a bracket that meets a question mark here meets it in the text without void markers too
    rw [Marker.withoutVoid_cons hread, Text.clear_cons_iff] at hvoid
    refine ⟨?_, fun ⟨hc, hhead⟩ => hvoid.1 ⟨?_, hlast.head_withoutVoid hrest hhead⟩, ih hrest hvoid.2⟩
    · change Text.Clear [c]
      simp [Text.clear_cons_iff]
    · change [c].getLast? = some '<' at hc
      simpa using hc

theorem safe (h : Renders s page) (hs : s.Clear) (hvoid : (withoutVoid s).Clear)
    (hhead : (withoutVoid s).head? ≠ some '?') : page.Safe :=
  ⟨h.tidy hs hvoid, fun hq => hhead (h.head_withoutVoid hs hq)⟩

end Renders

/-- What the label of a node must be like for no block to open in its page but those of the compiler. -/
def Node.Label.Clear : Node.Label → Prop
  | .text data => Text.Clear data ∧ Text.Clear (Marker.withoutVoid data) ∧
      (Marker.withoutVoid data).head? ≠ some '?'
  | .comment data | .code data => Text.Clear data
  | .element name attributes => Tag.IsName name ∧ ∀ item ∈ attributes,
      Tag.IsName item.1 ∧ ∀ value, item.2 = .text value → Text.Clear value

theorem Render.isInfix_blockBody (data : Text) : blockBody data <:+: data := by
  have hbody : (List.isPrefixOf? ['{', '@'] data).getD data <:+ data := by
    cases h : List.isPrefixOf? ['{', '@'] data with
    | none => exact List.suffix_rfl
    | some body => exact ⟨['{', '@'], (Text.isPrefixOf?_eq_some_iff.1 h).symm⟩
  unfold blockBody
  dsimp only
  split_ifs
  · exact (List.dropLast_prefix _).isInfix.trans hbody.isInfix
  · exact hbody.isInfix

theorem keeps_safe : Render.Keeps Node.Label.Clear Page.Safe where
  nil := .nil
  append := .append
  lineBreak := .markup (by simp) (by simp)
  text hlabel h := h.safe hlabel.1 hlabel.2.1 hlabel.2.2
  comment := by
    intro data hlabel
    have hcontent : Text.Clear (Text.partition ['/', '/'] data).1 :=
      (Text.inherited_clear.partition hlabel).1
    exact .markup (by simp [hcontent]) (by simp)
  code := by
    intro data hlabel _
    have hbody := Text.Clear.of_infix hlabel (Render.isInfix_blockBody data)
    exact .block (by simp) (Text.inherited_clear.trim hbody)
  unload := by
    intro name target attributes _ _
    have htarget := Text.clear_of_not_mem (Text.not_mem_escape (c := '<') (by decide) target)
    exact .markup (by simp [htarget]) (by simp)
  startTag skip hlabel :=
    .markup (clear_startTag hlabel.1 (fun item hi => (hlabel.2 item hi).1) skip) (by simp [startTag])
  endTag hlabel := .markup (clear_endTag hlabel.1) (by simp [endTag])
  conditional := by
    intro name condition attributes body hlabel h hbody
    obtain ⟨value, hvalue, rfl, -⟩ := Render.directive_eq_ok h
    have hclear := Text.inherited_clear.trim ((hlabel.2 _ (Attributes.mem_of_lookup hvalue)).2 value rfl)
    have hopen : Page.Safe [.openIf (Text.trim value)] := .block (by simp) hclear
    have hclose : Page.Safe [.closeIf] := .block (by simp) Text.clear_nil
    exact (hopen.append hbody).append hclose
  looping := by
    intro name attributes loop body hlabel h hbody
    obtain ⟨value, hvalue, hread⟩ := Render.loopDirective_eq_ok h
    have hclear := Text.inherited_clear.trim ((hlabel.2 _ (Attributes.mem_of_lookup hvalue)).2 value rfl)
    have hopen : Page.Safe [.openLoop loop] :=
      .block (by simp) (Loop.inherited_read Text.inherited_clear hclear hread)
    have hclose : Page.Safe [.closeLoop loop] := .block (by simp) Text.clear_nil
    have hbreak : Page.Safe [Page.lineBreak] := .markup (by simp) (by simp)
    exact ((hopen.append hbreak).append hbody).append (hbreak.append hclose)

theorem Node.Label.ReadIn.clear {source : Text} {label : Node.Label} (h : label.ReadIn source)
    (hsource : source.Clear)
    (htext : ∀ token ∈ tokenize source, token.kind = .text → token.raw.head? ≠ some '?')
    (hnameless : ∀ token ∈ tokenize source, ∀ tag ∈ token.tag?, tag.name = [] →
      (Marker.withoutVoid token.raw).Clear) : label.Clear := by
  cases h with
  | text token part noBlock =>
    have hdata := hsource.of_infix part
    rw [Node.Label.Clear, Marker.withoutVoid_eq_self noBlock]
    exact ⟨hdata, hdata, htext _ token rfl⟩
  | @nameless s position token part noName =>
    have hvoid := hnameless _ token _ rfl noName
    refine ⟨hsource.of_infix part, hvoid, ?_⟩
    have hread : Marker.read? ('<' :: s) = none := rfl
    rw [Marker.withoutVoid_cons hread]
    simp
  | comment part => exact hsource.of_infix part
  | code part => exact hsource.of_infix part
  | @element raw part named =>
    refine ⟨Tag.isName_read named, fun item hi => ⟨((Tag.attributes_read raw).2 item hi).1, ?_⟩⟩
    intro value hv hopen
    obtain ⟨name, _⟩ := item
    cases hv
    exact hsource.of_infix part (Tag.infix_of_mem_attributes (by decide) hi hopen)

end MarkupTemplate
