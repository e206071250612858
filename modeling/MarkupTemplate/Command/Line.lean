import MarkupTemplate.Text.Blank
import MarkupTemplate.Text.DecimalDigit
import MarkupTemplate.Text.Quoted

/-!
# Command lines

A program has options, each with its names and possibly a value, and at most one operand. An argument
that begins with a dash is an option if it is one of the names, a name with a value after an equals
sign, an unambiguous beginning of a long name, or a short name with its value or with more short
options attached. Negative numbers, a lone dash and anything with a space in it are no options, and
after a double dash nothing is. A double dash that is attached to an option in the place of its value
takes the value away.

All arguments are read before any takes effect, so an ambiguous one is reported first. The rest of the
work leaves a trace of events in the order in which they take effect; a misuse ends the trace. All that
is attached to a short option counts as one step with it: none of these options takes effect if the last
of them is misused.
-/

namespace MarkupTemplate.Command

structure Choice (κ : Type) where
  key : κ
  names : List Text
  takesValue : Bool

inductive Misuse
  | ambiguous (argument : Text) (matching : List Text)
  | expectedValue (names : List Text)
  | ignoredValue (names : List Text) (value : Text)
  | invalidInteger (names : List Text) (value : Text)
  | missing (operand : Text)
  | unrecognized (arguments : List Text)
deriving DecidableEq

namespace Misuse

def about (names : List Text) : Text :=
  "argument ".toList ++ List.intercalate ['/'] names ++ ": ".toList

def message : Misuse → Text
  | ambiguous argument matching =>
    "ambiguous option: ".toList ++ argument ++ " could match ".toList ++
      List.intercalate [',', ' '] matching
  | expectedValue names => about names ++ "expected one argument".toList
  | ignoredValue names value =>
    about names ++ "ignored explicit argument ".toList ++ Text.quoted value
  | invalidInteger names value => about names ++ "invalid int value: ".toList ++ Text.quoted value
  | missing operand => "the following arguments are required: ".toList ++ operand
  | unrecognized arguments =>
    "unrecognized arguments: ".toList ++ List.intercalate [' '] arguments

end Misuse

inductive Reading (κ : Type)
  | operand
  | separator
  | unknown
  | option (choice : Choice κ) (name : Text) (attached : Option Text)

structure Argument (κ : Type) where
  text : Text
  reading : Reading κ

variable {κ : Type}

def nameTable (choices : List (Choice κ)) : List (Text × Choice κ) :=
  choices.flatMap fun choice => choice.names.map (·, choice)

def isLong (name : Text) : Bool :=
  ['-', '-'].isPrefixOf name

def candidates (choices : List (Choice κ)) (argument : Text) :
    List (Choice κ × Text × Option Text) :=
  if isLong argument then
    let (start, attached) := match Text.cut? ['='] argument with
      | some (start, value) => (start, some value)
      | none => (argument, none)
    (nameTable choices).filterMap fun (name, choice) =>
      if start.isPrefixOf name then some (choice, name, attached) else none
  else
    (nameTable choices).filterMap fun (name, choice) =>
      if name = argument.take 2 then some (choice, name, some (argument.drop 2))
      else if argument.isPrefixOf name then some (choice, name, none)
      else none

/-- A dash and digits, possibly with a point before the last of them; a final line feed does not
count. -/
def isNegativeNumber (argument : Text) : Bool :=
  match argument with
  | '-' :: s =>
    let s := match s.reverse with
      | '\n' :: r => r.reverse
      | _ => s
    (!s.isEmpty && s.all isDigit) ||
      match s.dropWhile isDigit with
      | '.' :: s => !s.isEmpty && s.all isDigit
      | _ => false
  | _ => false

def readName? (choices : List (Choice κ)) (argument : Text) : Option (Reading κ) :=
  match (nameTable choices).lookup argument with
  | some choice => some (.option choice argument none)
  | none =>
    match Text.cut? ['='] argument with
    | some (name, value) =>
      ((nameTable choices).lookup name).map fun choice => .option choice name (some value)
    | none => none

def readOption (choices : List (Choice κ)) (argument : Text) : Except Misuse (Reading κ) :=
  match readName? choices argument with
  | some reading => .ok reading
  | none =>
    match candidates choices argument with
    | [(choice, name, attached)] => .ok (.option choice name attached)
    | [] =>
      if isNegativeNumber argument || argument.contains ' ' then .ok .operand else .ok .unknown
    | several => .error (.ambiguous argument (several.map fun (_, name, _) => name))

def readArgument (choices : List (Choice κ)) (argument : Text) : Except Misuse (Reading κ) :=
  match argument with
  | '-' :: _ :: _ => readOption choices argument
  | _ => .ok .operand

def readArguments (choices : List (Choice κ)) : List Text → Except Misuse (List (Argument κ))
  | [] => .ok []
  | text :: rest =>
    if text = ['-', '-'] then
      .ok (⟨text, .separator⟩ :: rest.map (⟨·, .operand⟩))
    else
      match readArgument choices text, readArguments choices rest with
      | .error e, _ => .error e
      | _, .error e => .error e
      | .ok reading, .ok rest => .ok (⟨text, reading⟩ :: rest)

inductive Event (κ : Type)
  | switch (key : κ)
  | value (choice : Choice κ) (value : Text)
  | noValue (choice : Choice κ)
  | operand (value : Text)
  | extra (argument : Text)
  | misuse (misuse : Misuse)

/-- What one argument comes to: events, and possibly an option that waits for its value. -/
structure Step (κ : Type) where
  events : List (Event κ)
  waiting : Option (Choice κ)

def Step.after (event : Event κ) (step : Step κ) : Step κ :=
  { step with events := event :: step.events }

def bare (choice : Choice κ) : Step κ :=
  if choice.takesValue then ⟨[], some choice⟩ else ⟨[.switch choice.key], none⟩

def withValue (choice : Choice κ) (value : Text) : Step κ :=
  if value = ['-', '-'] then ⟨[.noValue choice], none⟩ else ⟨[.value choice value], none⟩

/-- The step of the short option `choice` with what is attached to it: its value, or the letters of more
short options, of which the last may have a value again. -/
def cluster (choices : List (Choice κ)) (choice : Choice κ) : Text → Except Misuse (Step κ)
  | [] => .ok (bare choice)
  | c :: s =>
    if choice.takesValue then .ok (withValue choice (c :: s))
    else
      match (nameTable choices).lookup ['-', c] with
      | some next => (cluster choices next s).map (·.after (.switch choice.key))
      | none => .error (.ignoredValue choice.names (c :: s))

def optionStep (choices : List (Choice κ)) (choice : Choice κ) (name : Text) :
    Option Text → Except Misuse (Step κ)
  | none => .ok (bare choice)
  | some attached =>
    if choice.takesValue then .ok (withValue choice attached)
    else if attached.isEmpty || isLong name then .error (.ignoredValue choice.names attached)
    else cluster choices choice attached

/-- The events of the arguments in order. `pending` says that the operand is still to come. -/
def trace (choices : List (Choice κ)) (pending : Bool) : List (Argument κ) → List (Event κ)
  | [] => []
  | argument :: rest =>
    match argument.reading with
    | .unknown => .extra argument.text :: trace choices pending rest
    | .operand =>
      if pending then
        match rest with
        | ⟨_, .separator⟩ :: rest => .operand argument.text :: trace choices false rest
        | rest => .operand argument.text :: trace choices false rest
      else .extra argument.text :: trace choices pending rest
    | .separator =>
      match pending, rest with
      | true, operand :: rest => .operand operand.text :: trace choices false rest
      | _, rest => .extra argument.text :: trace choices pending rest
    | .option choice name attached =>
      match optionStep choices choice name attached with
      | .error e => [.misuse e]
      | .ok ⟨events, none⟩ => events ++ trace choices pending rest
      | .ok ⟨events, some choice⟩ =>
        match rest with
        | ⟨value, .operand⟩ :: rest =>
          events ++ .value choice value :: trace choices pending rest
        | _ => [.misuse (.expectedValue choice.names)]

def events (choices : List (Choice κ)) (hasOperand : Bool) (arguments : List Text) :
    List (Event κ) :=
  match readArguments choices arguments with
  | .ok arguments => trace choices hasOperand arguments
  | .error e => [.misuse e]

def lines (parts : List String) : Text :=
  parts.flatMap fun part => part.toList ++ ['\n']

structure Exit where
  status : Option Nat
  stdout : Text
  stderr : Text

def usageExit (program usage : Text) (misuse : Misuse) : Exit :=
  ⟨some 2, [], usage ++ program ++ ": error: ".toList ++ misuse.message ++ ['\n']⟩

end MarkupTemplate.Command
