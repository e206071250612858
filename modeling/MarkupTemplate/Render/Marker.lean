import MarkupTemplate.Expression
import MarkupTemplate.Page

/-!
# Markers in text

Text may hold `{$expression}`, which prints a value, and `{@ code }`, which runs code; both end at the
first closing brace. An empty expression is no marker, and a marker without its closing brace is text.
Everything between the markers is copied.
-/

namespace MarkupTemplate

inductive Marker
  | code (body : Text)
  | print (expr : Text)
deriving DecidableEq

namespace Marker

/-- The marker at the head of a text, and what follows it. -/
def read? : Text → Option (Marker × Text)
  | '{' :: '@' :: s => (Text.cut? ['}'] s).map fun (body, rest) => (.code body, rest)
  | '{' :: '$' :: s =>
    match Text.cut? ['}'] s with
    | some (c :: body, rest) => some (.print (c :: body), rest)
    | _ => none
  | _ => none

theorem length_read? {s rest : Text} {m : Marker} (h : read? s = some (m, rest)) :
    rest.length < s.length := by
  unfold read? at h
  split at h
  · obtain ⟨⟨b, r⟩, hb, he⟩ := Option.map_eq_some_iff.1 h
    cases he
    have := congrArg List.length (Text.append_of_cut? hb)
    simp only [List.length_append] at this
    simp only [List.length_cons]
    omega
  · split at h
    · next hb =>
      cases h
      have := congrArg List.length (Text.append_of_cut? hb)
      simp only [List.length_append] at this
      simp only [List.length_cons]
      omega
    · simp at h
  · simp at h

/-- Code on its own in the page. Blanks around it do not count, and no code is no block. -/
def hostCode (code : Text) : Except TemplateError Page :=
  match Text.trim code with
  | [] => .ok []
  | code => (Code.checked code).map fun code => [.code code]

def page : Marker → Except TemplateError Page
  | .code body => hostCode body
  | .print expr =>
    match Expression.compile (Text.trim expr) with
    | .ok compiled => (Code.checked compiled).map fun compiled => [.print compiled]
    | .error e => .error e

end Marker

def renderText (s : Text) : Except TemplateError Page :=
  match s with
  | [] => .ok []
  | c :: s =>
    match _h : Marker.read? (c :: s) with
    | some (marker, rest) =>
      match marker.page with
      | .ok page => (renderText rest).map (page ++ ·)
      | .error e => .error e
    | none => (renderText s).map (.markup [c] :: ·)
termination_by s.length
decreasing_by
  · exact Marker.length_read? _h
  · simp

end MarkupTemplate
