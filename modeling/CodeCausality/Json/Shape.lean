import CodeCausality.Json.Basic
import CodeCausality.Dictionary

/-!
# Values of a given shape

What a JSON value must look like to be read as a boolean, a float, a word, a list, a dictionary, a
named tag or a record.

A record is an object that may hold further members, `unusable` ones too, but none of its own twice,
or an array of its fields in order. `Field.presence` says which of them may be missing.
-/

namespace CodeCausality

namespace Json

/-! ## 1. Leaves and lists -/

def asBool? : Json → Option Bool
  | .bool b => some b
  | _ => none

def asString? : Json → Option String
  | .text s => some s
  | _ => none

/-- Any number in range; whole numbers count. -/
def asFloat? : Json → Option Float
  | .number n => n.toFloat?
  | _ => none

/-- A whole number from zero to `2 ^ 64 - 1`. -/
def asWord? : Json → Option Nat
  | .number n => n.toWord?
  | _ => none

def asList? {β : Type} (f : Json → Option β) : Json → Option (List β)
  | .array xs => xs.mapM f
  | _ => none

/-- `null` is none. -/
def asOption? {β : Type} (f : Json → Option β) : Json → Option (Option β)
  | .null => some none
  | j => (f j).map some

/-- An object read as a dictionary; of two members of one name the later stands. -/
def asDictionary? {β : Type} (f : Json → Option β) : Json → Option (Dictionary β)
  | .object ms => (ms.mapM fun m => (f m.2).map fun v => (m.1, v)).map Dictionary.ofList
  | _ => none

/-- The name of an alternative without content: a text, or an object with `null` under it. -/
def asTag? : Json → Option String
  | .text s => some s
  | .object [(k, .null)] => some k
  | _ => none

/-! ## 2. Repeated members -/

/-- Puts a member where the first of its name stands, or at the end. -/
def putMember (name : String) (v : Json) : List (String × Json) → List (String × Json)
  | [] => [(name, v)]
  | m :: rest => if m.1 = name then (name, v) :: rest else m :: putMember name v rest

mutual

/-- The value with one member a name in each object, the latest. -/
def withoutRepeats : Json → Json
  | .array xs => .array (elementsWithoutRepeats xs)
  | .object ms => .object (membersWithoutRepeats [] ms)
  | j => j

def elementsWithoutRepeats : List Json → List Json
  | [] => []
  | x :: xs => withoutRepeats x :: elementsWithoutRepeats xs

/-- The members after those that have been seen. -/
def membersWithoutRepeats (seen : List (String × Json)) :
    List (String × Json) → List (String × Json)
  | [] => seen
  | (name, x) :: ms => membersWithoutRepeats (putMember name (withoutRepeats x) seen) ms

end

/-! ## 3. Records -/

/-- Whether a field may be missing: never, from an object only, or at the end of an array too. -/
inductive Presence where
  | required
  | nullable
  | defaulted
  deriving DecidableEq

structure Field where
  name : String
  presence : Presence

/-- The only member of the name; two of one name refuse the object. -/
def uniqueMember? (ms : List (String × Json)) (name : String) : Option (Option Json) :=
  match ms.filter fun m => m.1 == name with
  | [] => some none
  | [m] => some (some m.2)
  | _ => none

/-- The elements of an array as the fields in order. -/
def positional? : List Field → List Json → Option (List (Option Json))
  | [], [] => some []
  | [], _ :: _ => none
  | f :: fs, [] => if f.presence = .defaulted then (positional? fs []).map (none :: ·) else none
  | _ :: fs, x :: xs => (positional? fs xs).map (some x :: ·)

/-- The values of the fields, in their order. -/
def fields? (fs : List Field) : Json → Option (List (Option Json))
  | .object ms => fs.mapM fun f =>
      match uniqueMember? ms f.name with
      | none => none
      | some none => if f.presence = .required then none else some none
      | some (some j) => some (some j)
  | .array xs => positional? fs xs
  | _ => none

/-- A field that may be absent or `null`. -/
def optionalField? {β : Type} (f : Json → Option β) : Option Json → Option (Option β)
  | none => some none
  | some j => asOption? f j

/-- A field that may be absent, with the value that then stands. -/
def defaultedField? {β : Type} (f : Json → Option β) (d : β) : Option Json → Option β
  | none => some d
  | some j => f j

/-- A field that must be there. -/
def requiredField? {β : Type} (f : Json → Option β) : Option Json → Option β
  | none => none
  | some j => f j

end Json

end CodeCausality
