import MarkupTemplate.Command.Line
import MarkupTemplate.Sample.Trial
import MarkupTemplate.Text.Integer

/-!
# The command line of the trials

The program runs a campaign of trials, or prints sample templates without compiling them. Where it
prints samples it ends without a status of its own.

A number whose value was taken away is missing. A missing number of samples asks for none; a missing
seed and a missing number of trials fail once they are needed, the seed first.
-/

namespace MarkupTemplate.Command

inductive TrialKey
  | help
  | count
  | seed
  | strict
  | verbose
  | sample
deriving DecidableEq

namespace Trial

def program : Text :=
  "fuzz.py".toList

def choices : List (Choice TrialKey) :=
  [⟨.help, ["-h".toList, "--help".toList], false⟩,
    ⟨.count, ["--num-tests".toList, "-n".toList], true⟩,
    ⟨.seed, ["--seed".toList, "-s".toList], true⟩,
    ⟨.strict, ["--strict".toList], false⟩,
    ⟨.verbose, ["--verbose".toList, "-v".toList], false⟩,
    ⟨.sample, ["--sample".toList], true⟩]

def usage : Text :=
  lines ["usage: fuzz.py [-h] [--num-tests NUM_TESTS] [--seed SEED] [--strict]",
    "               [--verbose] [--sample N]"]

def help : Text :=
  usage ++ lines ["",
    "Fuzz the template compiler with malformed input",
    "",
    "options:",
    "  -h, --help            show this help message and exit",
    "  --num-tests NUM_TESTS, -n NUM_TESTS",
    "                        Number of test cases (default: 1000)",
    "  --seed SEED, -s SEED  Random seed for reproducibility",
    "  --strict              Compile in strict mode",
    "  --verbose, -v         Verbose output",
    "  --sample N            Just print N sample templates (no compiling)"]

inductive Amount
  | number (n : Int)
  | missing
deriving DecidableEq

structure Request where
  count : Amount := .number 1000
  seed : Option Amount := none
  strict : Bool := false
  verbose : Bool := false
  sample : Amount := .number 0
  extras : List Text := []

def Request.set (request : Request) (amount : Amount) : TrialKey → Request
  | .count => { request with count := amount }
  | .seed => { request with seed := some amount }
  | .sample => { request with sample := amount }
  | _ => request

def interpret (request : Request) : List (Event TrialKey) → Except Exit Request
  | [] =>
    match request.extras with
    | [] => .ok request
    | extras => .error (usageExit program usage (.unrecognized extras))
  | .misuse e :: _ => .error (usageExit program usage e)
  | .switch .help :: _ => .error ⟨some 0, help, []⟩
  | .switch .strict :: rest => interpret { request with strict := true } rest
  | .switch .verbose :: rest => interpret { request with verbose := true } rest
  | .switch _ :: rest => interpret request rest
  | .value choice value :: rest =>
    match Text.integer? value with
    | some n => interpret (request.set (.number n) choice.key) rest
    | none => .error (usageExit program usage (.invalidInteger choice.names value))
  | .noValue choice :: rest => interpret (request.set .missing choice.key) rest
  | .operand argument :: rest | .extra argument :: rest =>
    interpret { request with extras := request.extras ++ [argument] } rest

def samples (random : RandomSource) (number : Nat) : Nat → Text
  | 0 => []
  | count + 1 =>
    let (source, random) := Sample.template.run random
    "=== Sample ".toList ++ Text.ofNat number ++ " ===\n".toList ++ source ++ ['\n', '\n'] ++
      samples random (number + 1) count

inductive Missing
  | seed
  | count
deriving DecidableEq

def Missing.message : Missing → Text
  | seed => "unsupported operand type(s) for %: 'list' and 'int'".toList
  | count => "'list' object cannot be interpreted as an integer".toList

def Request.source (request : Request) (random : RandomSource) : Except Missing RandomSource :=
  match request.seed with
  | none => .ok random
  | some (.number n) => .ok (RandomSource.seed n)
  | some .missing => .error .seed

def Request.samples? (request : Request) : Option Int :=
  match request.sample with
  | .number n => if n = 0 then none else some n
  | .missing => none

def Request.run (request : Request) (stack : Stack) (random : RandomSource) (clock : Sample.Clock) :
    Except Missing Exit :=
  match request.source random with
  | .error e => .error e
  | .ok random =>
    match request.samples?, request.count with
    | some n, _ => .ok ⟨none, samples random 1 n.toNat, []⟩
    | none, .missing => .error .count
    | none, .number count =>
      let result := Sample.campaign stack random clock count request.verbose request.strict
      .ok ⟨some (if result.passed then 0 else 1), result.output, []⟩

def run (stack : Stack) (random : RandomSource) (clock : Sample.Clock) (arguments : List Text) :
    Except Missing Exit :=
  match interpret {} (events choices false arguments) with
  | .error exit => .ok exit
  | .ok request => request.run stack random clock

end Trial

end MarkupTemplate.Command
