import MarkupTemplate.Proofs.Event
import MarkupTemplate.Proofs.ScanContext
import MarkupTemplate.Proofs.TagMarkup

/-!
# Reading printed markup

The linear form of what a source says is printed and scanned again. The two scans run in step: where
the first reads a tag, a comment or a run of text, the second reads what was printed for it, ends that
were put in included, and is in the same mode again afterwards. That the modes agree rests on one
invariant: in raw text, the innermost open element is the one whose end the scanner waits for.
-/

namespace MarkupTemplate

def Attributes.reprinted (element : Text) (attributes : Attributes) : Attributes :=
  escaped (attributes.filter fun (name, _) => Text.lower name != Text.lower element)

theorem Attributes.escaped_kept (element : Text) (attributes : Attributes) :
    (attributes.kept element []).escaped = attributes.reprinted element := by
  unfold kept reprinted
  congr 1
  refine List.filter_congr fun item _ => ?_
  simp [bne]

namespace Event

def markup : Event → Text
  | text data => data
  | comment data => "<!--".toList ++ data ++ "-->".toList
  | code data => data
  | single name attributes | enter name attributes => startTag name attributes []
  | leave name => endTag name

def markupAll (events : List Event) : Text :=
  events.flatMap markup

theorem markupAll_append (a b : List Event) : markupAll (a ++ b) = markupAll a ++ markupAll b :=
  List.flatMap_append

theorem markupAll_cons (event : Event) (events : List Event) :
    markupAll (event :: events) = event.markup ++ markupAll events := rfl

theorem markupAll_singleton (event : Event) : markupAll [event] = event.markup :=
  List.append_nil event.markup

def reprinted : Event → Event
  | single name attributes => single name (attributes.reprinted name)
  | enter name attributes => enter name (attributes.reprinted name)
  | event => event

end Event

namespace Scan

def eventsFrom (mode : Mode) (s : Text) : List Event :=
  (piecesFrom mode s).map (·.lexeme.event)

theorem eventsFrom_nil (mode : Mode) : eventsFrom mode [] = [] := by
  rw [eventsFrom, piecesFrom_nil]
  rfl

theorem eventsFrom_cons (mode : Mode) (c : Char) (s : Text) :
    eventsFrom mode (c :: s) =
      (step mode c s).piece.lexeme.event ::
        eventsFrom (step mode c s).mode (step mode c s).rest := by
  rw [eventsFrom, piecesFrom_cons]
  rfl

/-- Printed events end any text before them and are read back, whatever follows. -/
structure Reads (mode : Mode) (events : List Event) (next : Mode) : Prop where
  interrupts : ∀ rest, interrupts mode (Event.markupAll events ++ rest) = true
  read : ∀ rest, eventsFrom mode (Event.markupAll events ++ rest) =
    events.map Event.reprinted ++ eventsFrom next rest

theorem Reads.append {mode middle next : Mode} {a b : List Event} (ha : Reads mode a middle)
    (hb : Reads middle b next) : Reads mode (a ++ b) next := by
  have hassoc : ∀ rest, Event.markupAll (a ++ b) ++ rest =
      Event.markupAll a ++ (Event.markupAll b ++ rest) := by
    intro rest
    rw [Event.markupAll_append, List.append_assoc]
  refine ⟨fun rest => ?_, fun rest => ?_⟩
  · rw [hassoc]
    exact ha.interrupts _
  · rw [hassoc, ha.read, hb.read, List.map_append, List.append_assoc]

def InSync (mode : Mode) (names : List Text) : Prop :=
  ∀ name, mode = .rawText name →
    name ∈ rawTextElements ∧ ∃ inner outer, names = inner :: outer ∧ Text.lower inner = name

theorem inSync_content (names : List Text) : InSync .content names :=
  fun _ h => nomatch h

theorem InSync.plain {mode : Mode} {names : List Text} (h : InSync mode names) : mode.Plain := by
  intro name hn
  have hascii : ∀ name ∈ rawTextElements, name.all isAsciiWordChar = true := by decide
  exact List.all_eq_true.1 (hascii name (h name hn).1)

theorem toNat_lt_of_isNameChar {c : Char} (h : Tag.isNameChar c = true) : c.toNat < 128 := by
  simp only [Tag.isNameChar, Bool.or_eq_true, Bool.and_eq_true, decide_eq_true_eq,
    beq_iff_eq] at h
  rcases h with ((((⟨-, h⟩ | ⟨-, h⟩) | ⟨-, h⟩) | rfl) | rfl) | rfl
  · exact Nat.lt_of_le_of_lt (Char.le_def.1 h) (by decide)
  · exact Nat.lt_of_le_of_lt (Char.le_def.1 h) (by decide)
  · exact Nat.lt_of_le_of_lt (Char.le_def.1 h) (by decide)
  · decide
  · decide
  · decide

theorem closesRawText_endTag {name : Text} (h : Tag.IsName name) (rest : Text) :
    closesRawText (Text.lower name) (endTag name ++ rest) = true := by
  have hlower : Text.lower name = name.map Char.toLower :=
    Text.lower_of_ascii fun c hc => toNat_lt_of_isNameChar (h.all c hc)
  refine closesRawText_iff.2 ⟨name, '>' :: rest, by simp [endTag], ?_, fun c hc => ?_⟩
  · exact .of_toLower hlower.symm
  · cases hc
    exact .inr (.inr rfl)

theorem interrupts_endTag {mode : Mode} {name : Text} {outer : List Text} (hn : Tag.IsName name)
    (hsync : InSync mode (name :: outer)) (rest : Text) :
    interrupts mode (endTag name ++ rest) = true := by
  refine interrupts_iff.2 (.inr ⟨rfl, fun raw hm => ?_⟩)
  obtain ⟨-, inner, outer', hcons, rfl⟩ := hsync raw hm
  cases hcons
  exact closesRawText_endTag hn rest

theorem reads_leave {mode : Mode} {name : Text} {outer : List Text} (hn : Tag.IsName name)
    (hsync : InSync mode (name :: outer)) : Reads mode [.leave name] .content := by
  have hmarkup : ∀ rest, Event.markupAll [.leave name] ++ rest = endTag name ++ rest := by
    intro rest
    simp [Event.markupAll, Event.markup]
  refine ⟨fun rest => ?_, fun rest => ?_⟩
  · rw [hmarkup]
    exact interrupts_endTag hn hsync rest
  · have hstep : step mode '<' ((endTag name).tail ++ rest) = tagStep ((endTag name).tail ++ rest) := by
      refine step_eq_tagStep (interrupts_endTag hn hsync rest) fun t ht => ?_
      cases ht
    have hevent : (Lexeme.tag (endTag name) (.read (endTag name))).event = .leave name := by
      rw [Lexeme.event, Tag.read_endTag hn,
        if_neg fun he => hn.ne_nil (List.isEmpty_iff.1 he)]
      rfl
    have hcons : endTag name ++ rest = '<' :: ((endTag name).tail ++ rest) := rfl
    rw [hmarkup, hcons, eventsFrom_cons, hstep, tagStep_endTag hn]
    dsimp only
    rw [hevent]
    rfl

theorem reads_leaves {mode : Mode} {name : Text} {names : List Text}
    (hn : ∀ n ∈ name :: names, Tag.IsName n) (hsync : InSync mode (name :: names)) :
    Reads mode ((name :: names).map .leave) .content := by
  induction names generalizing mode name with
  | nil => exact reads_leave (hn name List.mem_cons_self) hsync
  | cons next names ih =>
    have hfirst := reads_leave (hn name List.mem_cons_self) hsync
    exact hfirst.append (ih (fun n hm => hn n (List.mem_cons_of_mem name hm)) (inSync_content _))

structure Printable (name : Text) (attributes : Attributes) : Prop where
  name : Tag.IsName name
  nodup : (attributes.map Prod.fst).Nodup
  writable : ∀ item ∈ attributes, Attributes.Writable item

theorem Printable.read {name : Text} {attributes : Attributes} (h : Printable name attributes) :
    Tag.read (startTag name attributes []) = ⟨name, attributes.reprinted name, false, false⟩ := by
  rw [← Attributes.escaped_kept]
  refine Tag.read_startTag h.name (fun item hi => h.writable item (List.mem_of_mem_filter hi)) ?_
  exact h.nodup.sublist ((List.filter_sublist).map Prod.fst)

def modeIn (name : Text) : Mode :=
  if rawTextElements.contains (Text.lower name) then .rawText (Text.lower name) else .content

theorem modeAfter_eq (tag : Tag) :
    modeAfter tag = if tag.closing || tag.selfClosing then .content else modeIn tag.name := by
  unfold modeAfter modeIn
  cases tag.closing <;> cases tag.selfClosing <;> simp

theorem inSync_modeIn (name : Text) (outer : List Text) : InSync (modeIn name) (name :: outer) := by
  intro raw hm
  unfold modeIn at hm
  split at hm
  · next hc =>
    cases hm
    exact ⟨List.contains_iff_mem.1 hc, name, outer, rfl, rfl⟩
  · cases hm

theorem modeIn_of_isChildless {name : Text} (h : isChildless name = true) :
    modeIn name = .content := by
  have hall : ∀ n ∈ voidElements ++ ["load".toList, "unload".toList],
      rawTextElements.contains n = false := by decide
  have hmem : Text.lower name ∈ voidElements ++ ["load".toList, "unload".toList] := by
    simp only [isChildless, isVoid, isLoad, isUnload, Bool.or_eq_true, List.contains_iff_mem,
      beq_iff_eq] at h
    simp only [List.mem_append, List.mem_cons, List.not_mem_nil, or_false]
    tauto
  rw [modeIn, hall _ hmem]
  rfl

theorem reads_startTag {name : Text} {attributes : Attributes} (h : Printable name attributes) :
    Reads .content
      [if isChildless name then .single name attributes else .enter name attributes]
      (modeIn name) := by
  have hmarkup : ∀ rest, Event.markupAll
      [if isChildless name then .single name attributes else .enter name attributes] ++ rest =
        startTag name attributes [] ++ rest := by
    intro rest
    split <;> simp [Event.markupAll, Event.markup]
  refine ⟨fun rest => ?_, fun rest => ?_⟩
  · rw [hmarkup]
    refine interrupts_iff.2 (.inr ⟨rfl, fun name hm => ?_⟩)
    cases hm
  · have hstep : step .content '<' ((startTag name attributes []).tail ++ rest) =
        tagStep ((startTag name attributes []).tail ++ rest) := by
      refine step_eq_tagStep rfl fun t ht => ?_
      obtain ⟨c, n, hc⟩ := List.exists_cons_of_ne_nil h.name.ne_nil
      rw [startTag, hc] at ht
      have hbang : c = '!' := (List.cons.inj ht).1
      exact h.name.not_mem (c := '!') (by decide) (by rw [hc, hbang]; exact List.mem_cons_self)
    have hevent : (Lexeme.tag (startTag name attributes [])
        (.read (startTag name attributes []))).event =
          Event.reprinted
            (if isChildless name then .single name attributes else .enter name attributes) := by
      rw [Lexeme.event, h.read, if_neg fun he => h.name.ne_nil (List.isEmpty_iff.1 he)]
      cases isChildless name <;> simp [Event.reprinted]
    have hcons : startTag name attributes [] ++ rest =
        '<' :: ((startTag name attributes []).tail ++ rest) := rfl
    rw [hmarkup, hcons, eventsFrom_cons, hstep, tagStep_startTag h.name fun item hi =>
      h.writable item (List.mem_of_mem_filter hi)]
    dsimp only
    rw [hevent, h.read, modeAfter_eq]
    rfl

theorem reads_comment {data : Text} (h : ¬ ['-', '-', '>'] <:+: data ++ ['-', '-']) :
    Reads .content [.comment data] .content := by
  have hmarkup : ∀ rest, Event.markupAll [.comment data] ++ rest =
      '<' :: '!' :: '-' :: '-' :: (data ++ ['-', '-', '>'] ++ rest) := by
    intro rest
    simp [Event.markupAll, Event.markup]
  refine ⟨fun rest => ?_, fun rest => ?_⟩
  · rw [hmarkup]
    rfl
  · rw [hmarkup, eventsFrom_cons, step_comment h]
    rfl

theorem closed?_spec {name : Text} {names closed rest : List Text}
    (h : closed? name names = some (closed, rest)) :
    names = closed ++ rest ∧ ∃ inner more, closed = inner :: more := by
  induction names generalizing closed with
  | nil => cases h
  | cons inner outer ih =>
    rw [closed?] at h
    split at h
    · cases h
      exact ⟨rfl, inner, [], rfl⟩
    · obtain ⟨⟨c, r⟩, hc, he⟩ := Option.map_eq_some_iff.1 h
      cases he
      exact ⟨by rw [(ih hc).1]; rfl, inner, c, rfl⟩

theorem closing_of_rawText {name s : Text} (h : interrupts (.rawText name) ('<' :: s) = true) :
    ∃ t, s = '/' :: t := by
  rcases interrupts_iff.1 h with ⟨t, ht⟩ | ⟨-, hraw⟩
  · cases ht
  · obtain ⟨w, rest, hs, -⟩ := closesRawText_iff.1 (hraw name rfl)
    cases hs
    exact ⟨_, rfl⟩

def Survives : Lexeme → Prop
  | .code _ => False
  | .tag _ tag => tag.name ≠ [] → tag.closing = false → Printable tag.name tag.attributes
  | _ => True

section Step

variable {mode : Mode} {names : List Text}

theorem reads_nameless (hm : mode.Plain) {s : Text} (hi : interrupts mode ('<' :: s) = true)
    (hs : ∀ t, s ≠ '!' :: '-' :: '-' :: t) (hcut : (tagStep s).piece.cut = none)
    (hname : (Tag.read ('<' :: (tagSpan '<' none s).taken)).name = []) :
    Reads mode [.text ('<' :: (tagSpan '<' none s).taken)] (tagStep s).mode := by
  have hmarkup : ∀ rest, Event.markupAll [.text ('<' :: (tagSpan '<' none s).taken)] ++ rest =
      '<' :: ((tagSpan '<' none s).taken ++ rest) := by
    intro rest
    simp [Event.markupAll, Event.markup]
  have hevent : (tagStep s).piece.lexeme.event = .text ('<' :: (tagSpan '<' none s).taken) := by
    change (Lexeme.tag _ _).event = _
    rw [Lexeme.event, hname]
    rfl
  refine ⟨fun rest => ?_, fun rest => ?_⟩
  · rw [hmarkup]
    exact (step_tag hm hi hs hcut rest).1
  · rw [hmarkup, eventsFrom_cons, (step_tag hm hi hs hcut rest).2]
    dsimp only
    rw [hevent]
    rfl

theorem reads_end (hsync : InSync mode names) (hnames : ∀ n ∈ names, Tag.IsName n) {name : Text}
    (h : closed? name names ≠ none) : Reads mode ((Event.leave name).linear names) .content := by
  obtain ⟨⟨closed, rest⟩, hc⟩ := Option.ne_none_iff_exists'.1 h
  obtain ⟨hsplit, inner, more, rfl⟩ := closed?_spec hc
  rw [Event.linear, hc]
  refine reads_leaves (fun n hn => hnames n ?_) fun raw hm => ?_
  · rw [hsplit]
    exact List.mem_append_left rest hn
  · obtain ⟨hraw, inner', outer, hcons, hlower⟩ := hsync raw hm
    rw [hsplit, List.cons_append, List.cons.injEq] at hcons
    exact ⟨hraw, inner, more, rfl, by rw [hcons.1, hlower]⟩

theorem reads_single {name : Text} {attributes : Attributes} (h : Printable name attributes) :
    Reads .content ((Event.single name attributes).linear names) .content := by
  have hstart := reads_startTag h
  rw [Event.linear]
  split
  · next hc =>
    rw [if_pos hc, modeIn_of_isChildless hc] at hstart
    exact hstart
  · next hc =>
    rw [if_neg hc] at hstart
    exact hstart.append (reads_leave h.name (inSync_modeIn name []))

theorem content_of_opening {s : Text} (hi : interrupts mode ('<' :: s) = true)
    (hc : (Tag.read ('<' :: (tagSpan '<' none s).taken)).closing = false) : mode = .content := by
  cases mode with
  | content => rfl
  | rawText name =>
    obtain ⟨t, rfl⟩ := closing_of_rawText hi
    have htaken : (tagSpan '<' none ('/' :: t)).taken = '/' :: (tagSpan '/' none t).taken := by
      rw [tagSpan, if_neg (by decide), if_neg (by decide)]
      rfl
    rw [htaken] at hc
    exact absurd hc (by simp [Tag.read, Tag.opening?, Text.trimStart, isBlank, isBlankCode])

theorem reads_tag (hsync : InSync mode names) (hnames : ∀ n ∈ names, Tag.IsName n) {s : Text}
    (hi : interrupts mode ('<' :: s) = true) (hs : ∀ t, s ≠ '!' :: '-' :: '-' :: t)
    (hcut : (tagStep s).piece.cut = none) (hsurvives : Survives (tagStep s).piece.lexeme)
    (hmatched : ∀ name, (tagStep s).piece.lexeme.event = .leave name → closed? name names ≠ none) :
    Reads mode ((tagStep s).piece.lexeme.event.linear names) (tagStep s).mode ∧
      InSync (tagStep s).mode ((tagStep s).piece.lexeme.event.after names) := by
  have hlexeme : (tagStep s).piece.lexeme = .tag ('<' :: (tagSpan '<' none s).taken)
      (.read ('<' :: (tagSpan '<' none s).taken)) := rfl
  have hmode : (tagStep s).mode = modeAfter (.read ('<' :: (tagSpan '<' none s).taken)) := rfl
  have hnameless := reads_nameless hsync.plain hi hs hcut
  have hcontent := content_of_opening hi
  rw [hlexeme] at hsurvives hmatched ⊢
  rw [hmode, modeAfter_eq] at hnameless ⊢
  rw [Lexeme.event] at hmatched ⊢
  generalize Tag.read ('<' :: (tagSpan '<' none s).taken) = tag at *
  by_cases hname : tag.name = []
  · have hnext : (if tag.closing || tag.selfClosing then Mode.content else modeIn tag.name) =
        .content := by
      rw [hname]
      split <;> rfl
    rw [if_pos (List.isEmpty_iff.2 hname)]
    refine ⟨hnameless hname, ?_⟩
    rw [hnext]
    exact inSync_content _
  · rw [if_neg fun he => hname (List.isEmpty_iff.1 he)] at hmatched ⊢
    cases hc : tag.closing with
    | true =>
      rw [hc] at hmatched
      exact ⟨reads_end hsync hnames (hmatched tag.name rfl), inSync_content _⟩
    | false =>
      have hprintable := hsurvives hname hc
      obtain rfl := hcontent hc
      rw [if_neg Bool.false_ne_true, Bool.false_or]
      cases hself : tag.selfClosing with
      | true => exact ⟨reads_single hprintable, inSync_content _⟩
      | false =>
        rw [Bool.false_or, if_neg Bool.false_ne_true]
        cases hchild : isChildless tag.name with
        | true =>
          rw [modeIn_of_isChildless hchild]
          exact ⟨reads_single hprintable, inSync_content _⟩
        | false =>
          have hstart := reads_startTag hprintable
          rw [hchild] at hstart
          exact ⟨hstart, inSync_modeIn tag.name names⟩

theorem reads_step (hsync : InSync mode names) (hnames : ∀ n ∈ names, Tag.IsName n) {c : Char}
    {s : Text} (hi : interrupts mode (c :: s) = true)
    (hcut : (step mode c s).piece.cut = none) (hsurvives : Survives (step mode c s).piece.lexeme)
    (hmatched : ∀ name, (step mode c s).piece.lexeme.event = .leave name →
      closed? name names ≠ none) :
    Reads mode ((step mode c s).piece.lexeme.event.linear names) (step mode c s).mode ∧
      InSync (step mode c s).mode ((step mode c s).piece.lexeme.event.after names) := by
  rcases step_cases mode c s with
    ⟨t, -, -, he⟩ | ⟨t, rfl, rfl, -, he⟩ | ⟨rfl, hs, -, he⟩ | ⟨hn, -⟩
  · rw [he] at hsurvives
    exact hsurvives.elim
  · have hmode : mode = .content := by
      cases mode with
      | content => rfl
      | rawText name =>
        obtain ⟨u, hu⟩ := closing_of_rawText hi
        cases hu
    subst hmode
    rw [he] at hcut ⊢
    unfold commentStep at hcut ⊢
    cases hd : Text.cut? ['-', '-', '>'] t with
    | none =>
      rw [hd] at hcut
      cases hcut
    | some found =>
      have hdata := Text.not_infix_of_cut? (by decide) hd
      exact ⟨reads_comment hdata, inSync_content _⟩
  · rw [he] at hcut hsurvives hmatched ⊢
    exact reads_tag hsync hnames hi hs hcut hsurvives hmatched
  · rw [hi] at hn
    cases hn

end Step

theorem Survives.printable {lexeme : Lexeme} (h : Survives lexeme) {name : Text}
    {attributes : Attributes} (he : lexeme.event = .enter name attributes) :
    Printable name attributes := by
  cases lexeme with
  | text data => cases he
  | comment data => cases he
  | code raw => cases he
  | tag raw tag =>
    rw [Lexeme.event] at he
    split_ifs at he with h₁ h₂ h₃
    cases he
    exact h (fun hn => h₁ (List.isEmpty_iff.2 hn)) (Bool.eq_false_iff.2 h₂)

theorem isName_after {names : List Text} (hnames : ∀ n ∈ names, Tag.IsName n) {lexeme : Lexeme}
    (h : Survives lexeme) : ∀ n ∈ lexeme.event.after names, Tag.IsName n := by
  intro n hn
  cases he : lexeme.event with
  | text data => rw [he] at hn; exact hnames n hn
  | comment data => rw [he] at hn; exact hnames n hn
  | code data => rw [he] at hn; exact hnames n hn
  | single name attributes => rw [he] at hn; exact hnames n hn
  | enter name attributes =>
    rw [he] at hn
    rcases List.mem_cons.1 hn with rfl | hn
    · exact (h.printable he).name
    · exact hnames n hn
  | leave name =>
    rw [he, Event.after] at hn
    cases hc : closed? name names with
    | none =>
      rw [hc] at hn
      exact hnames n hn
    | some found =>
      rw [hc] at hn
      refine hnames n ?_
      rw [(closed?_spec hc).1]
      exact List.mem_append_right _ hn

/-- What the scan of a source has to be for its events to be printed and read back, while the elements
in `names` are open. -/
structure Repeats (mode : Mode) (names : List Text) (s : Text) : Prop where
  sync : InSync mode names
  isName : ∀ n ∈ names, Tag.IsName n
  complete : ∀ piece ∈ piecesFrom mode s, piece.cut = none
  survives : ∀ piece ∈ piecesFrom mode s, Survives piece.lexeme
  matched : Event.Matched names (eventsFrom mode s)

namespace Repeats

variable {mode : Mode} {names : List Text} {c : Char} {s : Text}

theorem head (h : Repeats mode names (c :: s)) :
    (step mode c s).piece.cut = none ∧ Survives (step mode c s).piece.lexeme ∧
      ∀ name, (step mode c s).piece.lexeme.event = .leave name → closed? name names ≠ none := by
  obtain ⟨-, -, hcut, hsurvives, hmatched⟩ := h
  rw [piecesFrom_cons] at hcut hsurvives
  rw [eventsFrom_cons] at hmatched
  exact ⟨hcut _ List.mem_cons_self, hsurvives _ List.mem_cons_self, hmatched.1⟩

theorem reads (h : Repeats mode names (c :: s)) (hi : interrupts mode (c :: s) = true) :
    Reads mode ((step mode c s).piece.lexeme.event.linear names) (step mode c s).mode ∧
      InSync (step mode c s).mode ((step mode c s).piece.lexeme.event.after names) := by
  obtain ⟨hcut, hsurvives, hmatched⟩ := h.head
  exact reads_step h.sync h.isName hi hcut hsurvives hmatched

theorem tail (h : Repeats mode names (c :: s)) :
    Repeats (step mode c s).mode ((step mode c s).piece.lexeme.event.after names)
      (step mode c s).rest := by
  obtain ⟨-, hsurvives, -⟩ := h.head
  have hsync : InSync (step mode c s).mode ((step mode c s).piece.lexeme.event.after names) := by
    cases hi : interrupts mode (c :: s) with
    | true => exact (h.reads hi).2
    | false =>
      have hstep : step mode c s = textStep mode c s := if_neg (Bool.eq_false_iff.1 hi)
      rw [hstep]
      exact h.sync
  have hname := isName_after h.isName hsurvives
  obtain ⟨-, -, hcut, hall, hmatched⟩ := h
  rw [piecesFrom_cons] at hcut hall
  rw [eventsFrom_cons] at hmatched
  exact ⟨hsync, hname, fun p hp => hcut p (List.mem_cons_of_mem _ hp),
    fun p hp => hall p (List.mem_cons_of_mem _ hp), hmatched.2⟩

theorem interrupts (h : Repeats mode names s) (hs : s ≠ [] → Scan.interrupts mode s = true) :
    (Event.markupAll (Event.linearAll names (eventsFrom mode s)) ≠ [] →
      Scan.interrupts mode (Event.markupAll (Event.linearAll names (eventsFrom mode s))) = true) ∧
    (Event.markupAll (Event.linearAll names (eventsFrom mode s)) = [] → s = []) := by
  cases s with
  | nil =>
    refine ⟨fun hne => ?_, fun _ => rfl⟩
    rw [eventsFrom_nil] at hne ⊢
    cases names with
    | nil => exact absurd rfl hne
    | cons name names =>
      have := (reads_leaves h.isName h.sync).interrupts []
      rwa [List.append_nil] at this
  | cons c s =>
    have hi := ((h.reads (hs (List.cons_ne_nil c s))).1).interrupts
      (Event.markupAll (Event.linearAll ((step mode c s).piece.lexeme.event.after names)
        (eventsFrom (step mode c s).mode (step mode c s).rest)))
    have happ : Event.markupAll (Event.linearAll names (eventsFrom mode (c :: s))) =
        Event.markupAll ((step mode c s).piece.lexeme.event.linear names) ++
          Event.markupAll (Event.linearAll ((step mode c s).piece.lexeme.event.after names)
            (eventsFrom (step mode c s).mode (step mode c s).rest)) := by
      rw [eventsFrom_cons, Event.linearAll, Event.markupAll_append]
    rw [← happ] at hi
    refine ⟨fun _ => hi, fun hnil => ?_⟩
    rw [hnil] at hi
    cases hi

end Repeats

/-- Scanning what is printed for a source reads the same events, with the attributes as printed. -/
theorem eventsFrom_markupAll {mode : Mode} {names : List Text} {s : Text}
    (h : Repeats mode names s) :
    eventsFrom mode (Event.markupAll (Event.linearAll names (eventsFrom mode s))) =
      (Event.linearAll names (eventsFrom mode s)).map Event.reprinted := by
  induction hn : s.length using Nat.strong_induction_on generalizing mode names s with
  | _ n ih =>
    subst hn
    cases s with
    | nil =>
      rw [eventsFrom_nil, Event.linearAll]
      cases names with
      | nil => exact eventsFrom_nil mode
      | cons name names =>
        have := (reads_leaves h.isName h.sync).read []
        rwa [List.append_nil, eventsFrom_nil, List.append_nil] at this
    | cons c s =>
      have hrest := ih _ (length_rest_step mode c s) h.tail rfl
      rw [eventsFrom_cons, Event.linearAll, Event.markupAll_append, List.map_append]
      cases hi : interrupts mode (c :: s) with
      | true =>
        refine ((h.reads hi).1.read _).trans ?_
        exact congrArg _ hrest
      | false =>
        have hstep : step mode c s = textStep mode c s := if_neg (Bool.eq_false_iff.1 hi)
        have htail := h.tail
        rw [hstep] at htail hrest ⊢
        obtain ⟨ht, hnil⟩ := htail.interrupts (interrupts_rest_textRun mode s)
        have hread := step_text h.sync.plain hi ht hnil
        change eventsFrom mode (c :: (textRun mode s).1 ++ [] ++ _) = _
        rw [List.append_nil, List.cons_append, eventsFrom_cons]
        refine (congrArg (fun next : Step =>
          next.piece.lexeme.event :: eventsFrom next.mode next.rest) hread).trans ?_
        exact congrArg _ hrest

end Scan

end MarkupTemplate
