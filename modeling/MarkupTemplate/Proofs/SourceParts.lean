import MarkupTemplate.Proofs.DocumentOrder
import MarkupTemplate.Proofs.ShapePreservation

/-!
# Where the nodes of a tree come from

Each node of the tree of a source goes back to one token, and all that the node holds is written in the
source: the data of a leaf, and the name and the values of a tag. A text token holds no opening of a
raw-code block. A tag without a name becomes text too; its text begins with the bracket, and blocks may
open in it.
-/

namespace MarkupTemplate

/-- How the label of a node stands in the source of its tree. -/
inductive Node.Label.ReadIn (source : Text) : Node.Label → Prop
  | text {data : Text} {position : Nat} (token : ⟨.text data, position⟩ ∈ tokenize source)
      (part : data <:+: source) (noBlock : ¬ ['{', '@'] <:+: data) : ReadIn source (.text data)
  | nameless {s : Text} {position : Nat}
      (token : ⟨.tag ('<' :: s) (.read ('<' :: s)), position⟩ ∈ tokenize source)
      (part : '<' :: s <:+: source) (noName : (Tag.read ('<' :: s)).name = []) :
      ReadIn source (.text ('<' :: s))
  | comment {data : Text} (part : data <:+: source) : ReadIn source (.comment data)
  | code {raw : Text} (part : raw <:+: source) : ReadIn source (.code raw)
  | element {raw : Text} (part : raw <:+: source) (named : (Tag.read raw).name ≠ []) :
      ReadIn source (.element (Tag.read raw).name (Tag.read raw).attributes)

inductive Lexeme.ReadFrom : Text → Lexeme → Prop
  | text {data : Text} (noBlock : ¬ ['{', '@'] <:+: data) : ReadFrom data (.text data)
  | tag (s : Text) : ReadFrom ('<' :: s) (.tag ('<' :: s) (.read ('<' :: s)))
  | comment {data source : Text} (part : data <:+: source) : ReadFrom source (.comment data)
  | code (raw : Text) : ReadFrom raw (.code raw)

namespace Scan

theorem readFrom_step (mode : Mode) (c : Char) (s : Text) :
    (step mode c s).piece.lexeme.ReadFrom (step mode c s).piece.source := by
  rcases step_cases mode c s with ⟨t, -, -, he⟩ | ⟨t, -, -, -, he⟩ | ⟨-, -, -, he⟩ | ⟨hi, he⟩
  · rw [he]
    exact .code _
  · rw [he, commentStep]
    split
    · exact .comment ⟨"<!--".toList, "-->".toList, rfl⟩
    · exact .comment (List.suffix_append "<!--".toList t).isInfix
  · rw [he]
    exact .tag _
  · have hnone := noBlock_textRun mode (c :: s)
    rw [textRun_of_not_interrupts hi] at hnone
    rw [he]
    exact .text hnone

theorem readFrom_of_mem_piecesFrom {mode : Mode} {s : Text} :
    ∀ piece ∈ piecesFrom mode s, piece.lexeme.ReadFrom piece.source := by
  fun_induction piecesFrom mode s with
  | case1 => exact fun piece hp => absurd hp List.not_mem_nil
  | case2 mode c s next ih =>
    intro piece hp
    rcases List.mem_cons.1 hp with rfl | hp
    · exact readFrom_step mode c s
    · exact ih piece hp

theorem source_infix_of_mem_pieces {source : Text} {piece : Piece} (h : piece ∈ pieces source) :
    piece.source <:+: source := by
  have hflat := flatMap_source_piecesFrom .content source
  rw [List.flatMap_def] at hflat
  have hmem := List.infix_of_mem_flatten (List.mem_map_of_mem h : piece.source ∈ _)
  exact hflat ▸ hmem

end Scan

theorem exists_piece_of_mem_tokenize {source : Text} {token : Token} (h : token ∈ tokenize source) :
    ∃ piece ∈ Scan.pieces source, piece.lexeme = token.lexeme := by
  have hmem := List.mem_map_of_mem (f := (·.lexeme)) h
  rw [lexemes_tokenize] at hmem
  exact List.mem_map.1 hmem

theorem readIn_of_mem_labelsAll {source : Text} :
    ∀ label ∈ Node.labelsAll (documentOf (tokenize source)), label.ReadIn source := by
  intro label hl
  rw [documentOf, labelsAll_build] at hl
  obtain ⟨⟨lexeme, position⟩, htoken, hlabel⟩ := List.mem_filterMap.1 hl
  obtain ⟨⟨_, piece, cut⟩, hpiece, rfl⟩ := exists_piece_of_mem_tokenize htoken
  have hpart := Scan.source_infix_of_mem_pieces hpiece
  have hread := Scan.readFrom_of_mem_piecesFrom _ hpiece
  dsimp only at hlabel hread hpart
  cases hread with
  | text noBlock =>
    cases hlabel
    exact .text htoken hpart noBlock
  | comment part =>
    cases hlabel
    exact .comment (part.trans hpart)
  | code =>
    cases hlabel
    exact .code hpart
  | tag s =>
    simp only [Lexeme.label?] at hlabel
    split_ifs at hlabel with hname hclosing
    · cases hlabel
      exact .nameless htoken hpart (List.isEmpty_iff.1 hname)
    · cases hlabel
      exact .element hpart fun h => hname (List.isEmpty_iff.2 h)

namespace Tag

theorem parts_of_value? {s value rest : Text} (h : value? s = some (value, rest)) :
    value <:+: s ∧ rest <:+ s := by
  have hliteral : ∀ quote t, Text.literal? quote t = some (value, rest) →
      value <:+: quote :: t ∧ rest <:+ quote :: t := by
    intro quote t ht
    rw [Text.append_of_literal? ht]
    exact ⟨⟨[quote], quote :: rest, by simp⟩, ⟨quote :: value ++ [quote], by simp⟩⟩
  unfold value? at h
  split at h
  · exact hliteral _ _ h
  · exact hliteral _ _ h
  · split at h
    · cases h
    · cases h
      exact ⟨(List.takeWhile_prefix _).isInfix, List.dropWhile_suffix _⟩

theorem parts_of_attributeRest (s : Text) :
    (∀ value, (attributeRest s).1 = .text value → value <:+: s) ∧ (attributeRest s).2 <:+ s := by
  unfold attributeRest
  split
  · next value rest h =>
    unfold assigned? at h
    split at h
    · next t ht =>
      have hs : t <:+ s := (List.suffix_cons '=' t).trans (ht ▸ List.dropWhile_suffix _)
      have ht' : Text.trimStart t <:+ s := (List.dropWhile_suffix _).trans hs
      obtain ⟨hvalue, hrest⟩ := parts_of_value? h
      refine ⟨fun v hv => ?_, hrest.trans ht'⟩
      cases hv
      exact hvalue.trans ht'.isInfix
    · cases h
  · exact ⟨fun v hv => (nomatch hv), List.suffix_rfl⟩

theorem value_infix_of_mem_attributeItems (s : Text) :
    ∀ item ∈ attributeItems s, ∀ value, item.2 = .text value → value <:+: s := by
  fun_induction attributeItems s with
  | case1 => exact fun item hi => absurd hi List.not_mem_nil
  | case2 s c s' hs value ih =>
    intro item hi v hv
    have hname : (c :: s').dropWhile isNameChar <:+ s :=
      (List.dropWhile_suffix _).trans (hs ▸ List.dropWhile_suffix _)
    obtain ⟨hvalue, hrest⟩ := parts_of_attributeRest ((c :: s').dropWhile isNameChar)
    rcases List.mem_cons.1 hi with rfl | hi
    · exact (hvalue v hv).trans hname.isInfix
    · exact (ih item hi v hv).trans (hrest.trans hname).isInfix

theorem infix_of_infix_append_lineFeed {mark s : Text} (hm : '\n' ∉ mark)
    (h : mark <:+: s ++ ['\n']) : mark <:+: s := by
  rcases List.infix_concat_iff.1 h with h | h
  · rcases List.suffix_concat_iff.1 h with rfl | ⟨t, rfl, -⟩
    · exact List.nil_infix
    · exact absurd (by simp) hm
  · exact h

theorem prefix_of_tail? {s body : Text} {slash : Bool} (h : tail? s = some (slash, body)) :
    body <+: s := by
  unfold tail? at h
  split at h
  · next r hr =>
    have hs : r.reverse <+: s := by
      rw [← List.reverse_suffix, List.reverse_reverse, hr]
      exact List.suffix_cons _ _
    have hsuffix : ∀ t, t <:+ Text.trimStart r → t.reverse <+: s := by
      intro t ht
      exact (List.reverse_prefix.2 (ht.trans (List.dropWhile_suffix _))).trans hs
    split at h
    · next t ht =>
      cases h
      exact hsuffix t (ht ▸ List.suffix_cons _ _)
    · cases h
      exact hsuffix _ List.suffix_rfl
  · cases h

theorem splitFinalLineFeed_cases (s : Text) :
    (∃ r, s = r ++ ['\n'] ∧ splitFinalLineFeed s = (r, ['\n'])) ∨
      splitFinalLineFeed s = (s, []) := by
  unfold splitFinalLineFeed
  split
  · next r hr =>
    have hs : s = r.reverse ++ ['\n'] := by
      rw [← List.reverse_reverse s, hr, List.reverse_cons]
    exact .inl ⟨r.reverse, hs, rfl⟩
  · exact .inr rfl

/-- The end of a tag is cut off before its attributes are read, and a final line feed moves up to where
they end. No other text arises. -/
theorem infix_of_infix_dropTail {mark s : Text} (hm : '\n' ∉ mark) (h : mark <:+: (dropTail s).2) :
    mark <:+: s := by
  unfold dropTail at h
  split at h
  · next slash body ht =>
    rcases splitFinalLineFeed_cases s with ⟨r, rfl, hsplit⟩ | hsplit
    · rw [hsplit] at ht h
      have hbody := infix_of_infix_append_lineFeed hm h
      exact hbody.trans ((prefix_of_tail? ht).trans (List.prefix_append r _)).isInfix
    · rw [hsplit] at ht h
      rw [List.append_nil] at h
      exact h.trans (prefix_of_tail? ht).isInfix
  · exact h

theorem suffix_of_opening? {raw s : Text} {closing : Bool} (h : opening? raw = some (closing, s)) :
    s <:+ raw := by
  unfold opening? at h
  split at h
  · next t =>
    have ht : Text.trimStart t <:+ '<' :: t := (List.dropWhile_suffix _).trans (List.suffix_cons _ _)
    split at h
    · next u hu =>
      cases h
      have hu' : u <:+ Text.trimStart t := hu ▸ List.suffix_cons _ _
      exact (List.dropWhile_suffix _).trans (hu'.trans ht)
    · cases h
      exact ht
  · cases h

theorem infix_of_mem_attributes {raw name value mark : Text} (hm : '\n' ∉ mark)
    (h : (name, .text value) ∈ (read raw).attributes) (hv : mark <:+: value) : mark <:+: raw := by
  unfold read at h
  dsimp only at h
  split at h
  · cases h
  · have hitem := Attributes.mem_of_mem_ofList h
    have hrest := hv.trans (value_infix_of_mem_attributeItems _ _ hitem value rfl)
    refine (infix_of_infix_dropTail hm hrest).trans (List.IsSuffix.isInfix ?_)
    split
    · exact List.dropWhile_suffix _
    · refine (List.dropWhile_suffix _).trans ?_
      cases ho : opening? raw with
      | none => exact List.nil_suffix
      | some opening => exact suffix_of_opening? ho

end Tag

end MarkupTemplate
