import Elementwise.Size
import Elementwise.Text.Blank

/-!
# Configuration

A configuration fixes the capacity of the accelerator, the number of elements
that one step of a reduction folds, and whether launches may be dispatched in
parallel.  It starts from the defaults, which environment settings and
setters override.  A setting that cannot be read is ignored.
-/

namespace Elementwise

/-- The settings of a graph and its accelerator. -/
structure Config where
  /-- The elements that the accelerator can hold. -/
  capacity : Nat := 0x1000000
  /-- The elements that one step of a reduction folds. -/
  fanIn : Nat := 32
  parallel : Bool := true
deriving DecidableEq, Repr, Inhabited

/-- The environment settings that were given, each as it was written. -/
structure Environment where
  capacity : Option String := none
  fanIn : Option String := none
  parallel : Option String := none

namespace Config

/-- A step of a reduction folds at least this many elements. -/
def minFanIn : Nat := 2

def withCapacity (config : Config) (elements : Nat) : Config :=
  { config with capacity := elements }

/-- Sets the fan-in, raised to the least one if it lies below. -/
def withFanIn (config : Config) (fanIn : Nat) : Config :=
  { config with fanIn := max fanIn minFanIn }

def withParallel (config : Config) (parallel : Bool) : Config :=
  { config with parallel := parallel }

/-- The words, in any case, that stand for yes; all others stand for no. -/
def affirmative : List String :=
  ["1", "true", "yes", "on"]

/-- Whether a text affirms a setting. -/
def affirms (text : List Char) : Bool :=
  affirmative.contains (String.ofList (text.map Char.toLower))

/-- The defaults, overridden by the environment settings that can be read. -/
def ofEnvironment (environment : Environment) : Config :=
  let config : Config := {}
  let config :=
    match environment.capacity.bind (Text.numeral? Size.limit) with
    | some elements => config.withCapacity elements
    | none => config
  let config :=
    match environment.fanIn.bind (Text.numeral? Size.limit) with
    | some fanIn => config.withFanIn fanIn
    | none => config
  match environment.parallel.map (fun text => Text.trim text.toList) with
  | some (first :: rest) => config.withParallel (affirms (first :: rest))
  | _ => config

end Config

end Elementwise
