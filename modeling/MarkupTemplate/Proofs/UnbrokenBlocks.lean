import MarkupTemplate.Proofs.InjectionPlace
import MarkupTemplate.Proofs.Observers
import MarkupTemplate.Proofs.TidyPage

/-!
# Injection and the blocks of a page

Assets are injected into the finished text of a page, in which markup and blocks of the host language look
alike. A block ends with a question mark and a bracket, and a closing tag has no question mark up to the
character behind its name, so a closing tag that begins in a block is one that the block itself holds. Only
a block that holds the first closing tag of the page is broken: any other is in the final page as it was
written.
-/

namespace MarkupTemplate

open Injection

theorem Chunk.text_eq_of_block {block : Chunk} (hblock : ∀ s, block ≠ .markup s) :
    ∃ r, block.text = r ++ ['?', '>'] := by
  cases block with
  | markup s => exact absurd rfl (hblock s)
  | code body => exact ⟨"<?php\n".toList ++ body ++ ['\n'], (List.append_assoc _ ['\n'] _).symm⟩
  | print expr => exact ⟨"<?= ".toList ++ expr ++ [' '], (List.append_assoc _ [' '] _).symm⟩
  | openIf condition =>
    exact ⟨"<?php if(".toList ++ condition ++ "): ".toList, (List.append_assoc _ "): ".toList _).symm⟩
  | closeIf => exact ⟨"<?php endif; ".toList, rfl⟩
  | openLoop loop =>
    refine ⟨"<?php ".toList ++ loop.keyword ++ loop.content ++ "): ".toList, ?_⟩
    change loop.opening = _
    rw [loop.opening_eq]
    exact (List.append_assoc _ "): ".toList _).symm
  | closeLoop loop =>
    change ∃ r, loop.closing = r ++ ['?', '>']
    rcases loop.words with ⟨-, hc⟩ | ⟨-, hc⟩ <;> rw [hc]
    · exact ⟨"<?php endforeach; ".toList, rfl⟩
    · exact ⟨"<?php endfor; ".toList, rfl⟩

namespace Injection

variable {name : Text} (hname : ∀ p ∈ name, isAsciiWordChar p = true)
include hname

theorem closesHere_of_suffix {r v : Text} (hne : v ≠ []) (hv : v <:+ r ++ ['?', '>']) (t : Text) :
    closesHere name (v ++ t) = closesHere name (v ++ []) := by
  obtain ⟨u, hu⟩ := hv
  rcases List.append_eq_append_iff.1 hu with ⟨x, -, rfl⟩ | ⟨x, -, hx⟩
  · cases x with
    | nil => rfl
    | cons c x =>
      rw [List.append_assoc, List.append_assoc]
      exact closesHere_append_congr hname (List.cons_ne_nil c x) foreign_question foreign_question
        (by simp) (by simp)
  · -- the text begins inside the end of the block, where no closing tag begins
    rcases x with _ | ⟨c, _ | ⟨d, x⟩⟩
    · cases hx
      rfl
    · cases hx
      rfl
    · have hnil : x ++ v = [] := (List.cons.inj (List.cons.inj hx).2).2.symm
      exact absurd (List.append_eq_nil_iff.1 hnil).2 hne

theorem place?_block {block : Chunk} (hblock : ∀ s, block ≠ .markup s) {a t : Text} {k : Nat}
    (hk : k < block.text.length) (h : place? name (a ++ (block.text ++ t)) = some (a.length + k)) :
    place? name block.text = some k := by
  obtain ⟨r, hr⟩ := Chunk.text_eq_of_block hblock
  have hplace := place?_of_append h
  have hsame : ∀ v, v ≠ [] → v <:+ block.text →
      closesHere name (v ++ t) = closesHere name (v ++ []) := by
    intro v hne hv
    rw [hr] at hv
    exact closesHere_of_suffix hname hne hv t
  rcases place?_append_cases hsame with ⟨j, -, hj, halone⟩ | ⟨hafter, -⟩
  · rw [List.append_nil] at halone
    rw [halone, ← hj, hplace]
  · rw [hplace] at hafter
    obtain ⟨j, -, rfl⟩ := Option.map_eq_some_iff.1 hafter.symm
    omega

end Injection

/-- What injecting assets into a page does to its blocks. A block stays in one piece, unless a closing tag
that it holds is the first of the page. -/
structure Page.KeepsBlocks (assets : Assets) (page : Page) (output : Text) : Prop where
  woven : output = weave (assets.inserted page.text) page.text
  place : ∀ before block after, page = before ++ block :: after → (∀ s, block ≠ .markup s) →
    ∀ tag ∈ [headTag, bodyTag], ∀ k < block.text.length,
      place? tag page.text = some ((text before).length + k) → place? tag block.text = some k
  unbroken : ∀ before block after, page = before ++ block :: after → (∀ s, block ≠ .markup s) →
    (∀ tag ∈ [headTag, bodyTag], ∀ k, place? tag block.text = some k →
      place? tag page.text ≠ some ((text before).length + k)) →
      output = weave (assets.inserted page.text) (text before) ++ block.text ++
        weave (fun k => assets.inserted page.text ((text (before ++ [block])).length + k)) (text after)

theorem Page.text_split (before : Page) (block : Chunk) (after : Page) :
    text (before ++ block :: after) = text before ++ (block.text ++ text after) := by
  rw [text_append, text_cons]

theorem Page.keepsBlocks_inject (assets : Assets) (page : Page) :
    KeepsBlocks assets page (assets.inject page.text).text := by
  have hwoven := assets.text_inject page.text
  have hplace : ∀ before block after, page = before ++ block :: after → (∀ s, block ≠ .markup s) →
      ∀ tag ∈ [headTag, bodyTag], ∀ k < block.text.length,
        place? tag page.text = some ((text before).length + k) → place? tag block.text = some k := by
    intro before block after hpage hblock tag htag k hk hat
    have hname : ∀ p ∈ tag, isAsciiWordChar p = true := by
      rcases List.mem_pair.1 htag with rfl | rfl
      · exact isAsciiWordChar_headTag
      · exact isAsciiWordChar_bodyTag
    rw [hpage, text_split] at hat
    exact place?_block hname hblock hk hat
  refine ⟨hwoven, hplace, fun before block after hpage hblock hother => ?_⟩
  have hnothing : ∀ k < block.text.length, assets.inserted page.text ((text before).length + k) = [] := by
    intro k hk
    have hfree : ∀ tag ∈ [headTag, bodyTag],
        place? tag page.text ≠ some ((text before).length + k) :=
      fun tag htag hat =>
        hother tag htag k (hplace before block after hpage hblock tag htag k hk hat) hat
    simp [Assets.inserted, hfree headTag, hfree bodyTag]
  have hlength : (text (before ++ [block])).length = (text before).length + block.text.length := by
    simp [text]
  calc (assets.inject page.text).text = weave (assets.inserted page.text) page.text := hwoven
    _ = weave (assets.inserted page.text) (text before ++ (block.text ++ text after)) := by
      rw [← text_split, ← hpage]
    _ = _ := by
      rw [weave_append, weave_append, weave_eq_self hnothing, hlength, List.append_assoc]
      simp only [Nat.add_assoc]

def declaredAssets (source : Text) : Assets :=
  Assets.addAll [] (renderAll (documentOf (tokenize source))).declared

theorem output_of_compileText {strict : Bool} {source output : Text}
    (h : compileText strict true source = .ok output) :
    ∃ page, (renderAll (documentOf (tokenize source))).outcome = .ok page ∧
      output = ((declaredAssets source).inject (Page.text page)).text := by
  obtain ⟨template, htemplate, rfl⟩ := map_eq_ok_iff.1 h
  rw [outcome_compile] at htemplate
  split at htemplate
  · cases htemplate
  · next tokens hscan =>
    obtain rfl := tokens_of_scan hscan
    obtain ⟨output, houtput, rfl⟩ := map_eq_ok_iff.1 htemplate
    unfold Session.generate Session.complete at houtput
    cases hpage : (renderAll (documentOf (tokenize source))).outcome with
    | error e => simp [Session.receive, hpage] at houtput
    | ok page =>
      refine ⟨page, rfl, ?_⟩
      simpa [declaredAssets, Session.receive, Session.start, hpage, eq_comm] using houtput

/-- A compiled page is the page before injection with the lines of its assets put in, and they are put
into a block only where the block holds a closing tag. -/
theorem keepsBlocks_compileText {strict : Bool} {source output : Text}
    (h : compileText strict true source = .ok output) :
    ∃ page, (renderAll (documentOf (tokenize source))).outcome = .ok page ∧
      Page.KeepsBlocks (declaredAssets source) page output := by
  obtain ⟨page, hpage, rfl⟩ := output_of_compileText h
  exact ⟨page, hpage, page.keepsBlocks_inject (declaredAssets source)⟩

def blocksAround : Text :=
  "<head>\x7b@ $t; \x7d<load target=\"a.css\"></HEAD ><b cond=\"$x\">\x7b@ '</head>'; \x7d".toList

def blocksAroundOutput : Text :=
  "<head><?php\n$t;\n?><link rel=\"stylesheet\" href=\"a.css\" media=\"all\">\n</head>\n".toList ++
    "<?php if($x): ?><b><?php\n'</head>';\n?></b><?php endif; ?>\n".toList

theorem keepsBlocks_compileText_blocksAround :
    compileText true true blocksAround = .ok blocksAroundOutput ∧
      ∃ page, (renderAll (documentOf (tokenize blocksAround))).outcome = .ok page ∧
        Page.KeepsBlocks (declaredAssets blocksAround) page blocksAroundOutput := by
  have h : compileText true true blocksAround = .ok blocksAroundOutput := by decide +kernel
  exact ⟨h, keepsBlocks_compileText h⟩

def headInCode : Text :=
  "<head>\x7b@ echo '</head>'; \x7d<load target=\"a.css\"></head>".toList

def headInCodeOutput : Text :=
  "<head><?php\necho '<link rel=\"stylesheet\" href=\"a.css\" media=\"all\">\n</head>';\n?></head>".toList

theorem not_forall_blocks_unbroken :
    ¬ ∀ (strict : Bool) (source output : Text) (page before after : Page) (block : Chunk),
      compileText strict true source = .ok output →
      (renderAll (documentOf (tokenize source))).outcome = .ok page →
      page = before ++ block :: after → (∀ s, block ≠ .markup s) → block.text <:+: output := by
  intro hall
  have hbroken := hall false headInCode headInCodeOutput
    [.markup "<head>".toList, .code "echo '</head>';".toList, .markup "</head>".toList]
    [.markup "<head>".toList] [.markup "</head>".toList] (.code "echo '</head>';".toList)
    (by decide +kernel) (by decide +kernel) rfl (by simp)
  exact absurd hbroken (by decide +kernel)

end MarkupTemplate
