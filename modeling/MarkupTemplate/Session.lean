import MarkupTemplate.Log
import MarkupTemplate.Render

/-!
# Rendering sessions

A session renders documents one after another and keeps the assets they declare, also those declared
before a failure. Generating a page is rendering it and then, if the session is to, injecting all
assets collected so far.
-/

namespace MarkupTemplate

structure Session where
  injectAssets : Bool
  assets : Assets

structure Session.Result where
  session : Session
  log : List LogEntry
  outcome : Except Failure Text

namespace Session

def start (injectAssets : Bool) : Session :=
  ⟨injectAssets, []⟩

def receive (session : Session) (rendered : Rendered Page) : Result :=
  let after := { session with assets := session.assets.addAll rendered.declared }
  let log := rendered.declared.map .collected
  match rendered.outcome with
  | .ok page => ⟨after, log, .ok page.text⟩
  | .error e => ⟨after, log ++ e.log, .error e⟩

def complete (session : Session) (page : Rendered Page) : Result :=
  let rendered := session.receive page
  match rendered.outcome with
  | .ok text =>
    if session.injectAssets then
      let injected := rendered.session.assets.inject text
      ⟨rendered.session, rendered.log ++ rendered.session.assets.injectionLog injected,
        .ok injected.text⟩
    else rendered
  | .error _ => rendered

def render (session : Session) (document : Document) : Result :=
  session.receive (renderAll document)

def generate (session : Session) (document : Document) : Result :=
  session.complete (renderAll document)

end Session

end MarkupTemplate
