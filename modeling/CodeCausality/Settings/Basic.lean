import CodeCausality.Numeric.Scalar
import CodeCausality.Program.SideEffect

/-!
# Settings

What a user may set for building, fitting and simulating. A setting that is not given has a default,
and some are moved into the range in which they make sense; the functions here give the values that
take effect.
-/

namespace CodeCausality

/-! ## 1. Building -/

structure BuilderSettings where
  /-- Patterns of names that are pure side effects. -/
  sideEffectPatterns : Option (List String) := none
  deriving Repr, DecidableEq

def BuilderSettings.patterns (s : BuilderSettings) : List String :=
  s.sideEffectPatterns.getD SideEffect.defaultPatterns

/-! ## 2. Fitting -/

/-- How the noise of a fitted regression is represented: by a Gaussian of the residuals' variance
or by the residuals themselves. -/
inductive NoiseModel where
  | gaussian
  | empirical
  deriving Repr, DecidableEq

def NoiseModel.name : NoiseModel → String
  | gaussian => "gaussian"
  | empirical => "empirical"

def NoiseModel.ofName? (s : String) : Option NoiseModel :=
  [gaussian, empirical].find? fun m => m.name == s

def defaultSeed : UInt64 := 0x5eedcafe

structure FitSettings (α : Type) where
  validationThreshold : Option α := none
  folds : Option Nat := none
  noiseModel : Option NoiseModel := none
  staticTarget : Option α := none
  classifierPenalty : Option α := none
  logisticSteps : Option Nat := none
  softmaxSteps : Option Nat := none
  seed : Option UInt64 := none

namespace FitSettings

variable {α : Type} [Scalar α]

/-- The smallest acceptable score of a fitted model. -/
def threshold (s : FitSettings α) : α := s.validationThreshold.getD (Scalar.ofDecimal 7 1)

def foldCount (s : FitSettings α) : Nat := max (s.folds.getD 5) 2

def noise (s : FitSettings α) : NoiseModel := s.noiseModel.getD .gaussian

/-- The share of variance that a static mechanism explains. -/
def target (s : FitSettings α) : α :=
  Scalar.clamp (s.staticTarget.getD (Scalar.ofDecimal 6 1)) (Scalar.ofDecimal 5 2)
    (Scalar.ofDecimal 95 2)

def penalty (s : FitSettings α) : α := s.classifierPenalty.getD (Scalar.ofDecimal 1 3)

def newtonSteps (s : FitSettings α) : Nat := s.logisticSteps.getD 50

def gradientSteps (s : FitSettings α) : Nat := s.softmaxSteps.getD 500

/-- The seed of the folds, which the model keeps for its simulations. -/
def seedValue (s : FitSettings α) : UInt64 := s.seed.getD defaultSeed

end FitSettings

/-! ## 3. Simulating -/

structure SimulationSettings (α : Type) where
  samples : Option Nat := none
  resamples : Option Nat := none
  confidence : Option α := none
  seed : Option UInt64 := none

namespace SimulationSettings

variable {α : Type} [Scalar α]

def sampleCount (s : SimulationSettings α) : Nat := s.samples.getD 1000

def resampleCount (s : SimulationSettings α) : Nat := max (s.resamples.getD 1000) 1

def confidenceLevel (s : SimulationSettings α) : α :=
  Scalar.clamp (s.confidence.getD (Scalar.ofDecimal 95 2)) (Scalar.ofDecimal 5 1)
    (Scalar.ofDecimal 999 3)

end SimulationSettings

/-! ## 4. All settings -/

structure Settings where
  builder : BuilderSettings := {}
  fitting : FitSettings Float := {}
  simulation : SimulationSettings Float := {}

/-- Why settings cannot be loaded. -/
inductive SettingsError where
  | unreadable (path : String)
  | malformed (path : String)
  | invalidValue (key value : String)
  deriving Repr, DecidableEq

def SettingsError.message : SettingsError → String
  | unreadable path => s!"failed to read config file {path}"
  | malformed path => s!"invalid TOML in {path}"
  | invalidValue key value => s!"invalid value for {key}: {value}"

end CodeCausality
