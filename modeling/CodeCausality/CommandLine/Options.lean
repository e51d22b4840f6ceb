/-!
# Options of a command line

An option is given by its name behind two dashes or by its letter behind one. Its value is the next
word, or follows at once: `--graph g.json`, `--graph=g.json`, `-g g.json`, `-g=g.json` and
`-gg.json` say the same. The next word is no value if it looks like an option itself. This file fixes

* `OptionRule`, an option by name and letter, with or without a value, once or as often as wanted;
* `scan?`, the options at the front of a list of words, and the words from the first that is none.
-/

namespace CodeCausality

namespace CommandLine

/-! ## 1. Rules -/

/-- What an option takes and how often it may be given. -/
inductive OptionForm where
  | flag
  | single
  | repeated
  deriving Repr, DecidableEq

structure OptionRule where
  name : String
  letter : Option Char
  form : OptionForm
  deriving Repr, DecidableEq

/-- An option as given; a flag has no value. -/
structure GivenOption where
  name : String
  value : Option String
  deriving Repr, DecidableEq

/-! ## 2. Words -/

/-- A word that stands for an option. A single dash is an ordinary word. -/
def looksLikeOption (word : String) : Bool :=
  match word.toList with
  | '-' :: _ :: _ => true
  | _ => false

/-- The value at the front of the words, and the words behind it. -/
def takeValue? : List String → Option (String × List String)
  | [] => none
  | word :: rest => if looksLikeOption word then none else some (word, rest)

/-- The text before and after the first equals sign. -/
def splitEquals (s : List Char) : List Char × Option (List Char) :=
  (s.takeWhile (· != '='), match s.dropWhile (· != '=') with
    | [] => none
    | _ :: value => some value)

/-- The rule that a word calls, and the value that follows in the word. -/
def called? (rules : List OptionRule) (word : String) : Option (OptionRule × Option String) :=
  match word.toList with
  | '-' :: '-' :: long => do
    let (name, value) := splitEquals long
    let rule ← rules.find? (·.name == String.ofList name)
    return (rule, value.map String.ofList)
  | '-' :: letter :: value => do
    let rule ← rules.find? (·.letter == some letter)
    return (rule, match value with
      | [] => none
      | '=' :: value => some (String.ofList value)
      | value => some (String.ofList value))
  | _ => none

/-- The option that a word calls, with its value from the word or from the words behind it, and
the words that are left. -/
def readOption? (rules : List OptionRule) (word : String) (rest : List String) :
    Option (GivenOption × List String) := do
  let (rule, value) ← called? rules word
  match rule.form, value with
  | .flag, none => return (⟨rule.name, none⟩, rest)
  | .flag, some _ => failure
  | _, some v => return (⟨rule.name, some v⟩, rest)
  | _, none =>
    let (v, rest) ← takeValue? rest
    return (⟨rule.name, some v⟩, rest)

theorem length_takeValue? {words rest : List String} {v : String}
    (h : takeValue? words = some (v, rest)) : rest.length < words.length := by
  cases words with
  | nil => simp [takeValue?] at h
  | cons word words =>
    simp only [takeValue?] at h
    split at h
    · cases h
    · cases h
      simp

theorem length_readOption? {rules : List OptionRule} {word : String} {words rest : List String}
    {o : GivenOption} (h : readOption? rules word words = some (o, rest)) :
    rest.length ≤ words.length := by
  unfold readOption? at h
  obtain ⟨⟨rule, value⟩, _, h⟩ := Option.bind_eq_some_iff.1 h
  simp only at h
  split at h
  · cases h
    exact Nat.le_refl _
  · cases h
  · cases h
    exact Nat.le_refl _
  · obtain ⟨⟨v, r⟩, hv, h⟩ := Option.bind_eq_some_iff.1 h
    cases h
    exact Nat.le_of_lt (length_takeValue? hv)

/-! ## 3. Lists of words -/

/-- The options at the front of the words, and the words from the first that is no option. Two
dashes alone end the options; no word may follow them. -/
def scan? (rules : List OptionRule) (words : List String) :
    Option (List GivenOption × List String) :=
  match words with
  | [] => some ([], [])
  | ["--"] => some ([], [])
  | word :: rest =>
    if looksLikeOption word then
      match _h : readOption? rules word rest with
      | none => none
      | some (o, left) => (scan? rules left).map fun (os, left) => (o :: os, left)
    else some ([], word :: rest)
termination_by words.length
decreasing_by
  have := length_readOption? ‹readOption? rules word rest = _›
  simp only [List.length_cons]
  omega

/-- Whether each option that may be given once is given no more than once. -/
def withinBounds (rules : List OptionRule) (given : List GivenOption) : Bool :=
  rules.all fun r => r.form == .repeated || decide ((given.filter (·.name == r.name)).length ≤ 1)

/-- The values of an option, in the order in which they are given. -/
def valuesOf (given : List GivenOption) (name : String) : List String :=
  (given.filter (·.name == name)).filterMap (·.value)

def isGiven (given : List GivenOption) (name : String) : Bool := given.any (·.name == name)

end CommandLine

end CodeCausality
