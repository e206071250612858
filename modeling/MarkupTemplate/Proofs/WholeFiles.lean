import MarkupTemplate.Command.Compile
import MarkupTemplate.Proofs.FileEncoding
import MarkupTemplate.Proofs.OutputCharacters

/-!
# Files are written whole or not at all

A file is opened for writing before its text is encoded, so the text of a page must not fail there.
It cannot: the characters of a page are covered by the encoding in which its template was read, since
they come from the template or are characters of ASCII. So saving a compiled template either leaves the
volume as it is or writes the whole page to one file, and the command line does no more.
-/

namespace MarkupTemplate

theorem Encoding.isSome_encode?_output {encoding : Encoding} {options : Options} {source : Text}
    {template : Template} (hsource : ∀ c ∈ source, encoding.covers c = true)
    (h : (compile options source).outcome = .ok template) :
    (encoding.encode? template.output).isSome = true := by
  apply isSome_encode?_iff.2
  intro c hc
  rcases drawnFrom_output h c hc with hmem | hown
  · exact hsource c hmem
  · exact encoding.covers_of_isOwnChar hown

theorem decodeFile_eq_ok {name source : Text} {content : Bytes} (h : decodeFile name content = .ok source) :
    '\r' ∉ source ∧ ∃ encoding, Encoding.ofName? name = some encoding ∧
      ∀ c ∈ source, encoding.covers c = true := by
  unfold decodeFile at h
  split at h
  · cases h
  · next encoding hname =>
    split at h
    · next text htext =>
      cases h
      refine ⟨fun hr => (Text.mem_unifyLineEnds hr).1 rfl, encoding, hname, fun c hc => ?_⟩
      rcases (Text.mem_unifyLineEnds hc).2 with hc | rfl
      · exact Encoding.covers_of_decode htext c hc
      · exact encoding.covers_of_isOwnChar (by decide)
    · cases h

theorem decodeFile_of_encode? {name text : Text} {encoding : Encoding} {content : Bytes}
    (hname : Encoding.ofName? name = some encoding) (hr : '\r' ∉ text)
    (h : encoding.encode? text = some content) : decodeFile name content = .ok text := by
  simp only [decodeFile, hname, Encoding.decode_of_encode? h, Text.unifyLineEnds_of_not_mem hr]

namespace Volume

variable {volume after : Volume} {place other : List Text} {path encoding text : Text} {content : Bytes}

theorem find?_put_self (entry : Entry) (h : place ≠ []) :
    (volume.put place entry).find? place = some entry := by
  simp [find?, h, put]

theorem find?_put_of_ne (entry : Entry) (h : other ≠ place) :
    (volume.put place entry).find? other = volume.find? other := by
  have hlookup : ∀ entries : List (List Text × Entry),
      (entries.filter fun item => item.1 != place).lookup other = entries.lookup other := by
    intro entries
    induction entries with
    | nil => rfl
    | cons item entries ih =>
      obtain ⟨p, e⟩ := item
      by_cases hp : p = place
      · have hother : (other == p) = false := by simpa [hp] using h
        rw [List.lookup_cons, hother]
        simp [hp, ih]
      · simp [hp, List.lookup_cons, ih]
  have hfirst : (other == place) = false := by simpa using h
  simp only [find?, put, List.lookup_cons, hfirst]
  rw [← hlookup volume.entries]

def TakesFile (volume : Volume) (place : List Text) : Prop :=
  ∀ entry, volume.find? place = some entry → ∃ access content, entry = .file access content

theorem TakesFile.ne_nil (h : volume.TakesFile place) : place ≠ [] := by
  rintro rfl
  obtain ⟨access, content, he⟩ := h (.directory volume.root) rfl
  cases he

theorem find?_fill_self (h : volume.TakesFile place) (content : Bytes) :
    ∃ access, (volume.fill place content).find? place = some (.file access content) :=
  ⟨_, find?_put_self _ h.ne_nil⟩

theorem find?_fill_of_ne (h : other ≠ place) (content : Bytes) :
    (volume.fill place content).find? other = volume.find? other :=
  find?_put_of_ne _ h

theorem find?_fill_iff (h : volume.TakesFile place) (content : Bytes) {entry : Entry}
    (hentry : ∀ access bytes, entry ≠ .file access bytes) :
    (volume.fill place content).find? other = some entry ↔ volume.find? other = some entry := by
  by_cases he : other = place
  · subst he
    obtain ⟨access, hself⟩ := find?_fill_self h content
    rw [hself]
    constructor
    · intro hfile
      exact absurd (Option.some.inj hfile).symm (hentry access content)
    · intro hfile
      obtain ⟨access, bytes, rfl⟩ := h entry hfile
      exact absurd rfl (hentry access bytes)
  · rw [find?_fill_of_ne he]

theorem walkThrough_fill {follow again : List Text → List Text → Except FileFault (List Text)}
    (h : volume.TakesFile place)
    (hfollow : ∀ start parts, follow start parts = .ok other → again start parts = .ok other)
    {start parts : List Text} (hwalk : volume.walkThrough follow start parts = .ok other) :
    (volume.fill place content).walkThrough again start parts = .ok other := by
  induction parts generalizing start with
  | nil => exact hwalk
  | cons part parts ih =>
    rw [walkThrough] at hwalk ⊢
    split at hwalk
    · next access hstart =>
      rw [(find?_fill_iff h content (by simp)).2 hstart]
      dsimp only
      split_ifs at hwalk ⊢
      split at hwalk
      · next absolute target hlink =>
        rw [(find?_fill_iff h content (by simp)).2 hlink]
        exact hfollow _ _ hwalk
      · next hplain =>
        split
        · next absolute target hlink =>
          exact absurd ((find?_fill_iff h content (by simp)).1 hlink) (hplain absolute target)
        · exact ih hwalk
    · cases hwalk
    · cases hwalk

theorem walk_fill (h : volume.TakesFile place) {links : Nat} {start parts : List Text}
    (hwalk : volume.walk links start parts = .ok other) :
    (volume.fill place content).walk links start parts = .ok other := by
  induction links generalizing start parts with
  | zero => exact walkThrough_fill h (fun _ _ hfollow => hfollow) hwalk
  | succ links ih => exact walkThrough_fill h (fun _ _ => ih) hwalk

theorem resolve_fill (h : volume.TakesFile place) (hresolve : volume.resolve path = .ok other) :
    (volume.fill place content).resolve path = .ok other := by
  unfold resolve at hresolve ⊢
  split_ifs at hresolve ⊢
  · exact walk_fill h hresolve
  · exact walk_fill h hresolve

theorem writable_eq_ok (h : volume.writable path = .ok place) :
    volume.resolve path = .ok place ∧ volume.TakesFile place := by
  unfold writable at h
  split at h
  · cases h
  · next found hfound =>
    split at h
    · cases h
    · next access bytes hfile =>
      split_ifs at h
      cases h
      refine ⟨hfound, fun entry hentry => ⟨access, bytes, ?_⟩⟩
      exact Option.some.inj (hentry.symm.trans hfile)
    · cases h
    · next hnone =>
      split_ifs at h
      cases h
      refine ⟨hfound, fun entry hentry => ?_⟩
      cases hnone.symm.trans hentry

/-- In `after` the file at `place` has this content, and everything else is as it was in `volume`. -/
structure Replaces (volume after : Volume) (place : List Text) (content : Bytes) : Prop where
  file : ∃ access, after.find? place = some (.file access content)
  others : ∀ other, other ≠ place → after.find? other = volume.find? other
  working : after.working = volume.working

structure Written (volume after : Volume) (path encoding text : Text) : Prop where
  file : ∃ place known content, volume.resolve path = .ok place ∧ after.resolve path = .ok place ∧
    Encoding.ofName? encoding = some known ∧ known.encode? text = some content ∧
    decodeFile encoding content = .ok text ∧ volume.Replaces after place content

theorem written_fill {known : Encoding} (hplace : volume.writable path = .ok place)
    (hname : Encoding.ofName? encoding = some known) (hr : '\r' ∉ text)
    (h : known.encode? text = some content) :
    Written volume (volume.fill place content) path encoding text := by
  obtain ⟨hresolve, htakes⟩ := writable_eq_ok hplace
  have hreplaces : volume.Replaces (volume.fill place content) place content :=
    ⟨find?_fill_self htakes content, fun other hne => find?_fill_of_ne hne content, rfl⟩
  exact ⟨place, known, content, hresolve, resolve_fill htakes hresolve, hname, h,
    decodeFile_of_encode? hname hr h, hreplaces⟩

theorem writeText_cases (volume : Volume) (path : Text) {known : Encoding}
    (hname : Encoding.ofName? encoding = some known) (hr : '\r' ∉ text)
    (h : (known.encode? text).isSome = true) :
    (∃ e, volume.writable path = .error e ∧
      volume.writeText path encoding text = (volume, .error (.file e))) ∨
    ∃ place after, volume.writable path = .ok place ∧
      volume.writeText path encoding text = (after, .ok ()) ∧
      Written volume after path encoding text := by
  obtain ⟨content, hcontent⟩ := Option.isSome_iff_exists.1 h
  unfold writeText
  cases hplace : volume.writable path with
  | error e => exact .inl ⟨e, rfl, rfl⟩
  | ok place =>
    simp only [hname, hcontent]
    exact .inr ⟨place, _, rfl, rfl, written_fill hplace hname hr hcontent⟩

theorem readText_eq_ok {source : Text} (h : volume.readText path encoding = .ok source) :
    ∃ content, volume.read path = .ok content ∧ decodeFile encoding content = .ok source := by
  unfold readText at h
  split at h
  · next content hcontent => exact ⟨content, hcontent, h⟩
  · cases h

theorem compileFile_eq_ok {options : Options} (h : volume.compileFile path options = .ok text) :
    ∃ source template, volume.readText path options.fileEncoding = .ok source ∧
      (compile options source).outcome = .ok template ∧ template.output = text := by
  unfold compileFile at h
  split at h
  · cases h
  · cases h
  · split at h
    · next source hsource =>
      cases hc : (compile options source).outcome with
      | error e => simp [hc, Except.map, Except.mapError] at h
      | ok template =>
        refine ⟨source, template, hsource, hc, ?_⟩
        simpa [hc, Except.map, Except.mapError] using h
    · cases h

theorem encodable_output {name source : Text} {content : Bytes} {options : Options} {template : Template}
    (hsource : decodeFile name content = .ok source)
    (h : (compile options source).outcome = .ok template) :
    '\r' ∉ template.output ∧ ∃ known, Encoding.ofName? name = some known ∧
      (known.encode? template.output).isSome = true := by
  obtain ⟨hr, known, hname, hcovers⟩ := decodeFile_eq_ok hsource
  refine ⟨fun hmem => ?_, known, hname, Encoding.isSome_encode?_output hcovers h⟩
  rcases drawnFrom_output h _ hmem with hmem | hown
  · exact hr hmem
  · exact absurd hown (by decide)

structure SavesWhole (volume : Volume) (template output : Text) (options : Options) : Prop where
  unchanged : ∀ e, (volume.saveCompiled template output options).2 = .error e →
    (volume.saveCompiled template output options).1 = volume
  written : (volume.saveCompiled template output options).2 = .ok () →
    ∃ text, volume.compileFile template options = .ok text ∧
      Written volume (volume.saveCompiled template output options).1 output options.fileEncoding text
  succeeds : ∀ text place, volume.compileFile template options = .ok text →
    volume.writable output = .ok place → (volume.saveCompiled template output options).2 = .ok ()

theorem savesWhole (volume : Volume) (template output : Text) (options : Options) :
    volume.SavesWhole template output options := by
  cases hc : volume.compileFile template options with
  | error e =>
    have hsave : volume.saveCompiled template output options = (volume, .error e) := by
      simp only [saveCompiled, hc]
    refine ⟨fun _ _ => by rw [hsave], fun h => ?_, fun text _ h => ?_⟩
    · rw [hsave] at h
      cases h
    · rw [hc] at h
      cases h
  | ok text =>
    have hsave : volume.saveCompiled template output options =
        volume.writeText output options.fileEncoding text := by
      simp only [saveCompiled, hc]
    obtain ⟨source, page, hread, hpage, rfl⟩ := compileFile_eq_ok hc
    obtain ⟨content, -, hsource⟩ := readText_eq_ok hread
    obtain ⟨hr, known, hname, hencode⟩ := encodable_output hsource hpage
    rcases volume.writeText_cases output hname hr hencode with ⟨e, he, hw⟩ | ⟨place, after, -, hw, hwritten⟩
    · refine ⟨fun _ _ => by rw [hsave, hw], fun h => ?_, fun _ place _ h => ?_⟩
      · rw [hsave, hw] at h
        cases h
      · rw [he] at h
        cases h
    · refine ⟨fun e h => ?_, fun _ => ⟨_, hc, by rwa [hsave, hw]⟩, fun _ _ _ _ => by rw [hsave, hw]⟩
      rw [hsave, hw] at h
      cases h

end Volume

namespace Command.Compile

variable {template : Text} {request : Request}

structure Request.AsksForFile (request : Request) : Prop where
  tokens : request.tokens = false
  tree : request.tree = false
  output : request.output ≠ []

theorem answer_eq_ok {content : Except FileError Bytes} {reply : Answer}
    (h : answer template request content = .ok reply) :
    (reply.save = none ∧ (reply.exit.status = some 0 → ¬ request.AsksForFile)) ∨
      (request.AsksForFile ∧ reply.exit.status = some 0 ∧ ∃ bytes source page, content = .ok bytes ∧
        decodeFile request.options.fileEncoding bytes = .ok source ∧
        (compile request.options source).outcome = .ok page ∧
        reply.save = some (request.output, page.output)) := by
  have hfailed : ∀ log message, errorExit log message = reply →
      reply.save = none ∧ (reply.exit.status = some 0 → ¬ request.AsksForFile) := by
    rintro log message rfl
    exact ⟨rfl, fun hstatus => absurd hstatus (by simp [errorExit])⟩
  unfold answer at h
  split at h
  · exact .inl (hfailed _ _ (Except.ok.inj h))
  · cases h
  · next bytes =>
    split at h
    · cases h
    · next source hsource =>
      dsimp only at h
      split at h
      · next page hpage =>
        cases h
        unfold present
        dsimp only
        split_ifs with htokens htree houtput
        · exact .inl ⟨rfl, fun _ hasks => by simp [hasks.tokens] at htokens⟩
        · exact .inl ⟨rfl, fun _ hasks => by simp [hasks.tree] at htree⟩
        · exact .inl ⟨rfl, fun _ hasks => hasks.output (List.isEmpty_iff.1 houtput)⟩
        · refine .inr ⟨⟨by simpa using htokens, by simpa using htree, ?_⟩, rfl, bytes, source, page,
            rfl, hsource, hpage, rfl⟩
          exact fun hnil => houtput (List.isEmpty_iff.2 hnil)
      · exact .inl (hfailed _ _ (Except.ok.inj h))
      · cases h

theorem compileText_eq_ok {source : Text} {page : Template}
    (h : (compile request.options source).outcome = .ok page) :
    compileText request.strict request.injectAssets source = .ok page.output := by
  have hcontent := map_content_compile
    { strict := request.strict, injectAssets := request.injectAssets } source request.verbose
  change (compile request.options source).outcome.map Template.content = _ at hcontent
  rw [h] at hcontent
  obtain ⟨page', hpage', he⟩ := map_eq_ok_iff.1 hcontent.symm
  rw [compileText, hpage']
  exact congrArg (fun content => Except.ok content.2.2) he

end Command.Compile

namespace Volume

open Command.Compile (Request call answer)

/-- A call of the command line changes a file only if that was asked for and went well, and then it has
written the whole page to that file alone. -/
structure RunsWhole (volume : Volume) (arguments : List Text) : Prop where
  unchanged : (volume.run arguments).1 ≠ volume → ∃ template request exit,
    call arguments = .request template request ∧ request.AsksForFile ∧
    (volume.run arguments).2 = .ok exit ∧ exit.status = some 0
  written : ∀ template request exit, call arguments = .request template request →
    request.AsksForFile → (volume.run arguments).2 = .ok exit → exit.status = some 0 →
    ∃ source text, volume.readText template "utf-8".toList = .ok source ∧
      compileText request.strict request.injectAssets source = .ok text ∧
      Written volume (volume.run arguments).1 request.output "utf-8".toList text

/-- A call ends with the volume as it was, or it has written the file that was asked for. -/
theorem run_cases (volume : Volume) (arguments : List Text) :
    (∃ outcome, volume.run arguments = (volume, outcome) ∧ ∀ template request exit,
      call arguments = .request template request → outcome = .ok exit → exit.status = some 0 →
        ¬ request.AsksForFile) ∨
    ∃ template request exit after source text, volume.run arguments = (after, .ok exit) ∧
      call arguments = .request template request ∧ request.AsksForFile ∧ exit.status = some 0 ∧
      volume.readText template "utf-8".toList = .ok source ∧
      compileText request.strict request.injectAssets source = .ok text ∧
      Written volume after request.output "utf-8".toList text := by
  cases hcall : call arguments with
  | exit exit =>
    refine .inl ⟨.ok exit, by simp only [run, hcall], fun _ _ _ h => ?_⟩
    cases h
  | request template request =>
    cases hanswer : answer template request (volume.read template) with
    | error e =>
      refine .inl ⟨.error e, by simp only [run, hcall, hanswer], fun _ _ _ _ h => ?_⟩
      cases h
    | ok reply =>
      obtain ⟨exit, save⟩ := reply
      rcases Command.Compile.answer_eq_ok hanswer with ⟨hnone, hnot⟩ |
        ⟨hasks, hstatus, bytes, source, page, hbytes, hsource, hpage, hsave⟩
      · cases hnone
        refine .inl ⟨.ok exit, by simp only [run, hcall, hanswer], fun _ _ _ hc ho hs => ?_⟩
        cases hc
        cases ho
        exact hnot hs
      · cases hsave
        obtain ⟨hr, known, hname, hencode⟩ := encodable_output hsource hpage
        have hread : volume.readText template "utf-8".toList = .ok source := by
          simp only [readText, hbytes]
          exact hsource
        rcases volume.writeText_cases request.output hname hr hencode with
          ⟨e, -, hw⟩ | ⟨place, after, -, hw, hwritten⟩
        · refine .inl ⟨.error (.file e), by simp only [run, hcall, hanswer, hw], fun _ _ _ _ h => ?_⟩
          cases h
        · exact .inr ⟨template, request, exit, after, source, page.output,
            by simp only [run, hcall, hanswer, hw], rfl, hasks, hstatus, hread,
            Command.Compile.compileText_eq_ok hpage, hwritten⟩

theorem runsWhole (volume : Volume) (arguments : List Text) : volume.RunsWhole arguments := by
  rcases volume.run_cases arguments with ⟨outcome, hrun, hnot⟩ |
    ⟨template, request, exit, after, source, text, hrun, hcall, hasks, hstatus, hread, htext, hwritten⟩
  · refine ⟨fun hne => absurd (by rw [hrun]) hne, fun template request exit hcall hasks ho hs => ?_⟩
    rw [hrun] at ho
    exact absurd hasks (hnot template request exit hcall ho hs)
  · refine ⟨fun _ => ⟨template, request, exit, hcall, hasks, by rw [hrun], hstatus⟩, ?_⟩
    intro template' request' exit' hcall' _ _ _
    cases hcall.symm.trans hcall'
    exact ⟨source, text, hread, htext, by rwa [hrun]⟩

end Volume

private def sampleVolume : Volume where
  root := {}
  working := ["w".toList]
  entries := [(["w".toList], .directory {}), (["w".toList, "a".toList], .file {} [120]),
    (["w".toList, "b".toList], .file { write := false } [121]),
    (["w".toList, "l".toList], .link true ["w".toList])]

example : (sampleVolume.saveCompiled "/w/a".toList "l/c".toList {}).1.read "../w/c".toList =
    .ok [120] := by
  decide +kernel

example : sampleVolume.saveCompiled "a".toList "/w/b".toList {} =
    (sampleVolume, .error (.file ⟨.denied, "/w/b".toList⟩)) := by
  decide +kernel

end MarkupTemplate
