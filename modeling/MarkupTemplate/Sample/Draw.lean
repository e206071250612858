import MarkupTemplate.Text.Basic

/-!
# Random draws

A draw is a computation that now and then asks for a number below a bound and goes on with whatever it
gets. It says nothing about where the numbers come from: it can be run on a source of random numbers,
and all that it can come to at all is what some sequence of numbers within the bounds leads to.
-/

namespace MarkupTemplate

inductive Draw (α : Type) : Type
  | done (a : α)
  | draw (bound : Nat) (next : Nat → Draw α)

namespace Draw

variable {α β : Type}

def bind (f : α → Draw β) : Draw α → Draw β
  | done a => f a
  | draw bound next => draw bound fun i => bind f (next i)

instance : Monad Draw where
  pure := done
  bind x f := bind f x

/-- The results that numbers within the bounds can lead to. -/
inductive Reaches : Draw α → α → Prop
  | done (a : α) : Reaches (done a) a
  | draw {bound : Nat} {next : Nat → Draw α} {i : Nat} {a : α} :
      i < bound → Reaches (next i) a → Reaches (draw bound next) a

def number (bound : Nat) : Draw Nat :=
  draw bound done

def between (low high : Nat) : Draw Nat := do
  return low + (← number (high - low + 1))

def chance (perMille : Nat) : Draw Bool := do
  return (← number 1000) < perMille

def pick (items : List Text) : Draw Text := do
  return items.getD (← number items.length) []

def times : Nat → Draw α → Draw (List α)
  | 0, _ => done []
  | count + 1, x => do
    let a ← x
    let rest ← times count x
    return a :: rest

end Draw

structure RandomSource where
  state : UInt64
deriving DecidableEq

namespace RandomSource

def seed (n : Int) : RandomSource :=
  ⟨UInt64.ofNat (n % 18446744073709551616).toNat⟩

@[irreducible]
def next (source : RandomSource) : RandomSource :=
  ⟨source.state * 6364136223846793005 + 1442695040888963407⟩

def number (source : RandomSource) (bound : Nat) : Nat :=
  (source.state >>> 33).toNat % bound

end RandomSource

def Draw.run {α : Type} (source : RandomSource) : Draw α → α × RandomSource
  | .done a => (a, source)
  | .draw bound next => run source.next (next (source.next.number bound))

def Draw.runTimes {α : Type} (source : RandomSource) (x : Draw α) : Nat → List α × RandomSource
  | 0 => ([], source)
  | count + 1 =>
    let (a, source) := x.run source
    let (rest, source) := runTimes source x count
    (a :: rest, source)

end MarkupTemplate
