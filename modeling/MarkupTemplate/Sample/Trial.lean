import MarkupTemplate.Sample.Markup
import MarkupTemplate.Template

/-!
# Trying the compiler out

Random templates are compiled one after another, and each trial is timed. A template may compile or be
rejected with a compile error; any other failure counts as a crash, and more than five seconds as a
hang. The report counts them and shows the first crashes and hangs.

Time is read off a clock of whole seconds that moves on by the next of its ticks whenever it is read,
and takes the ticks round and round.
-/

namespace MarkupTemplate.Sample

structure Clock where
  now : Nat
  ticks : List Nat
  left : List Nat

namespace Clock

def start (ticks : List Nat) : Clock :=
  ⟨0, ticks, ticks⟩

def read (clock : Clock) : Nat × Clock :=
  match clock.left, clock.ticks with
  | tick :: left, _ => (clock.now, { clock with now := clock.now + tick, left })
  | [], tick :: left => (clock.now, { clock with now := clock.now + tick, left })
  | [], [] => (clock.now, clock)

end Clock

inductive Verdict
  | compiled
  | rejected
  | crashed (failure : Failure)
deriving DecidableEq

def verdict (stack : Stack) (strict : Bool) (source : Text) : Verdict :=
  match compileTextOn stack strict true source with
  | .ok _ => .compiled
  | .error (.template _) => .rejected
  | .error failure => .crashed failure

structure Trial where
  number : Nat
  source : Text
  verdict : Verdict
  seconds : Nat

namespace Trial

def failure? (trial : Trial) : Option Failure :=
  match trial.verdict with
  | .crashed failure => some failure
  | .compiled | .rejected => none

def isHang (trial : Trial) : Bool :=
  trial.seconds > 5

end Trial

/-- What trying `sources` one after another comes to, the first of them with the number `number`, and
where the clock stands then. -/
def trials (stack : Stack) (strict : Bool) (clock : Clock) (number : Nat) :
    List Text → List Trial × Clock
  | [] => ([], clock)
  | source :: sources =>
    let (began, clock) := clock.read
    let (ended, clock) := clock.read
    let (rest, clock) := trials stack strict clock (number + 1) sources
    (⟨number, source, verdict stack strict source, ended - began⟩ :: rest, clock)

def seconds (n : Nat) : Text :=
  Text.ofNat n ++ ".00".toList

def textLine (s : Text) : Text :=
  s ++ ['\n']

def countLine (label : String) (n : Int) : Text :=
  textLine (label.toList ++ Text.decimal n)

def progress (count : Int) (trial : Trial) : Text :=
  (if trial.number % 100 = 0 then
    textLine ("  Test ".toList ++ Text.ofNat trial.number ++ ['/'] ++ Text.decimal count ++
      "...".toList)
  else []) ++
  match trial.failure? with
  | some failure =>
    textLine ("  CRASH: Test ".toList ++ Text.ofNat trial.number ++ [':', ' '] ++ failure.message)
  | none => []

def sourceLine (trial : Trial) : Text :=
  textLine ("  Template: ".toList ++ Text.quoted (trial.source.take 200) ++ "...".toList)

def crashReport (trial : Trial) (failure : Failure) : Text :=
  textLine ("\nTest #".toList ++ Text.ofNat trial.number ++ [':']) ++ sourceLine trial ++
  textLine ("  Error: ".toList ++ failure.label ++ [':', ' '] ++ failure.message)

def hangReport (trial : Trial) : Text :=
  textLine ("\nTest #".toList ++ Text.ofNat trial.number ++ " (".toList ++ seconds trial.seconds ++
    "s):".toList) ++ sourceLine trial

def countOf (v : Verdict) (results : List Trial) : Nat :=
  results.countP fun trial => trial.verdict = v

def crashes (results : List Trial) : List (Trial × Failure) :=
  results.filterMap fun trial => trial.failure?.map (trial, ·)

def hangs (results : List Trial) : List Trial :=
  results.filter Trial.isHang

def rule : Text :=
  List.replicate 60 '='

def summary (count : Int) (results : List Trial) (total : Nat) : Text :=
  textLine ('\n' :: rule) ++ textLine "FUZZING RESULTS: expohtml".toList ++ textLine rule ++
  countLine "Total tests:    " count ++
  countLine "Compiled:       " (countOf .compiled results) ++
  countLine "Rejected:       " (countOf .rejected results) ++
  countLine "Crashes:        " (crashes results).length ++
  countLine "Hangs (>5s):    " (hangs results).length ++
  textLine ("Total time:     ".toList ++ seconds total ++ ['s']) ++
  ((crashes results).take 10).flatMap (fun (trial, failure) => crashReport trial failure) ++
  ((hangs results).take 5).flatMap hangReport

structure Report where
  results : List Trial
  total : Nat

namespace Report

def of (stack : Stack) (strict : Bool) (clock : Clock) (sources : List Text) : Report :=
  let (began, clock) := clock.read
  let (results, clock) := trials stack strict clock 0 sources
  let (ended, _) := clock.read
  ⟨results, ended - began⟩

def passed (report : Report) : Bool :=
  (crashes report.results).isEmpty && (hangs report.results).isEmpty

def output (count : Int) (verbose : Bool) (report : Report) : Text :=
  textLine ("Fuzzing expohtml with ".toList ++ Text.decimal count ++ " test cases...".toList) ++
  (if verbose then report.results.flatMap (progress count) else []) ++
  summary count report.results report.total

end Report

/-- What a campaign of trials prints, whether it went well, and where the random numbers stand. -/
structure Campaign where
  output : Text
  passed : Bool
  random : RandomSource

def campaign (stack : Stack) (random : RandomSource) (clock : Clock) (count : Int)
    (verbose strict : Bool) : Campaign :=
  let (sources, random) := template.runTimes random count.toNat
  let report := Report.of stack strict clock sources
  ⟨report.output count verbose, report.passed, random⟩

end MarkupTemplate.Sample
