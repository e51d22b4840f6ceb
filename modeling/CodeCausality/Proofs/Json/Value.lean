import Mathlib.Data.List.DropRight
import CodeCausality.Proofs.Json.Number
import CodeCausality.Proofs.Json.Text

/-!
# Values are read back

A value is read from its indented text as it was, but for its numbers, which are what their texts
read as. The reader's fuel is counted by the characters of the text, each of which costs two steps
at most, and a value may nest as deep as the reader goes.

* `reread` -- the value with what its numbers read as;
* `Within` -- the value nests at most so many levels deep;
* `ReadsBack`, `readElements_pretty`, `readMembers_pretty` -- what is read of a value, of the
  elements of an array and of the members of an object;
* `readsBack_of_within`, `parse?_pretty` -- **the text of a value is read as the value, with its
  numbers reread**.
-/

namespace CodeCausality

namespace Json

/-! ## 1. What is read of a value -/

mutual

/-- The value with what its numbers read as. -/
def reread : Json → Json
  | .number n => .number (rereadNumber n)
  | .array xs => .array (rereadElements xs)
  | .object ms => .object (rereadMembers ms)
  | .null => .null
  | .bool b => .bool b
  | .text s => .text s
  | .unusable => .unusable

def rereadElements : List Json → List Json
  | [] => []
  | x :: xs => reread x :: rereadElements xs

def rereadMembers : List (String × Json) → List (String × Json)
  | [] => []
  | (k, x) :: ms => (k, reread x) :: rereadMembers ms

end

theorem rereadElements_eq_map (xs : List Json) : rereadElements xs = xs.map reread := by
  induction xs with
  | nil => rfl
  | cons x xs ih => exact congrArg (reread x :: ·) ih

theorem rereadMembers_eq_map (ms : List (String × Json)) :
    rereadMembers ms = ms.map fun m => (m.1, reread m.2) := by
  induction ms with
  | nil => rfl
  | cons m ms ih => exact congrArg ((m.1, reread m.2) :: ·) ih

@[simp] theorem reread_array (xs : List Json) : reread (.array xs) = .array (xs.map reread) :=
  congrArg array (rereadElements_eq_map xs)

@[simp] theorem reread_object (ms : List (String × Json)) :
    reread (.object ms) = .object (ms.map fun m => (m.1, reread m.2)) :=
  congrArg object (rereadMembers_eq_map ms)

@[simp] theorem reread_text (s : String) : reread (.text s) = .text s := rfl

@[simp] theorem reread_bool (b : Bool) : reread (.bool b) = .bool b := rfl

@[simp] theorem reread_null : reread .null = .null := rfl

@[simp] theorem reread_ofNat (n : Nat) : reread (ofNat n) = ofNat n :=
  congrArg number (rereadNumber_natural n)

/-- The value nests at most so many levels deep. -/
inductive Within : Nat → Json → Prop where
  | null {depth : Nat} : Within depth .null
  | bool {depth : Nat} (b : Bool) : Within depth (.bool b)
  | number {depth : Nat} (n : JsonNumber) : Within depth (.number n)
  | text {depth : Nat} (s : String) : Within depth (.text s)
  | array {depth : Nat} {xs : List Json} (h : ∀ x ∈ xs, Within depth x) :
      Within (depth + 1) (.array xs)
  | object {depth : Nat} {ms : List (String × Json)} (h : ∀ m ∈ ms, Within depth m.2) :
      Within (depth + 1) (.object ms)

/-! ## 2. Blanks -/

/-- Only what stands between the parts of a value follows, or nothing. -/
def Stops (rest : List Char) : Prop := ∀ c ∈ rest.head?, c = ',' ∨ c = '\n'

theorem Stops.ends {rest : List Char} (h : Stops rest) : Ends rest := fun c hc => by
  rcases h c hc with rfl | rfl <;> decide

theorem skipSpace_append {blanks : List Char} (h : ∀ c ∈ blanks, isSpace c = true)
    (s : List Char) : skipSpace (blanks ++ s) = skipSpace s :=
  List.dropWhile_append_of_pos h

theorem skipSpace_cons {c : Char} (h : isSpace c = false) (s : List Char) :
    skipSpace (c :: s) = c :: s := by
  rw [skipSpace, List.dropWhile_cons, h, if_neg Bool.false_ne_true]

theorem skipSpace_skipSpace (s : List Char) : skipSpace (skipSpace s) = skipSpace s :=
  List.dropWhile_idempotent isSpace s

theorem toList_lineBreak (level : Nat) :
    (lineBreak level).toList = '\n' :: List.replicate (2 * level) ' ' := by
  simp [lineBreak]

theorem isSpace_lineBreak (level : Nat) : ∀ c ∈ (lineBreak level).toList, isSpace c = true := by
  intro c hc
  rw [toList_lineBreak] at hc
  rcases List.mem_cons.mp hc with rfl | hc
  · rfl
  · rw [(List.mem_replicate.mp hc).2]
    rfl

theorem stops_lineBreak (level : Nat) (s : List Char) : Stops ((lineBreak level).toList ++ s) := by
  rw [toList_lineBreak]
  intro c hc
  exact .inr (Option.some.inj hc).symm

theorem stops_comma (s : List Char) : Stops (',' :: s) := fun _ hc =>
  .inl (Option.some.inj hc).symm

theorem readValue_skipSpace (fuel depth : Nat) (s : List Char) :
    readValue fuel depth (skipSpace s) = readValue fuel depth s := by
  cases fuel with
  | zero => rfl
  | succ fuel => rw [readValue, skipSpace_skipSpace, readValue]

theorem readElements_skipSpace (fuel depth : Nat) (s : List Char) :
    readElements fuel depth (skipSpace s) = readElements fuel depth s := by
  cases fuel with
  | zero => rfl
  | succ fuel => rw [readElements, readValue_skipSpace, readElements]

theorem readMembers_skipSpace (fuel depth : Nat) (s : List Char) :
    readMembers fuel depth (skipSpace s) = readMembers fuel depth s := by
  cases fuel with
  | zero => rfl
  | succ fuel => rw [readMembers, skipSpace_skipSpace, readMembers]

/-! ## 3. Leaves -/

/-- The value's text is read as the value, with its numbers reread, wherever the text stops, by a
reader that goes so deep and has the fuel for it. -/
def ReadsBack (depth : Nat) (j : Json) : Prop :=
  ∀ (fuel level : Nat) (rest : List Char), Stops rest →
    2 * (prettyAt level j).toList.length ≤ fuel →
    readValue fuel depth ((prettyAt level j).toList ++ rest) = some (reread j, rest)

theorem isSpace_eq_false_of_number {c : Char} (h : c = '-' ∨ c.isDigit = true) :
    isSpace c = false := by
  rw [Bool.eq_false_iff]
  intro hspace
  simp only [isSpace, Bool.or_eq_true, beq_iff_eq] at hspace
  rcases hspace with ((rfl | rfl) | rfl) | rfl <;> exact absurd h (by decide)

theorem readValue_number (fuel depth : Nat) (n : JsonNumber) {rest : List Char} (h : Ends rest) :
    readValue (fuel + 1) depth ((numberText n).toList ++ rest) =
      some (.number (rereadNumber n), rest) := by
  have hread := readNumber_numberText n h
  obtain ⟨c, tail, htext, hc⟩ := head_numberText n
  rw [htext, List.cons_append] at hread ⊢
  rw [readValue, skipSpace_cons (isSpace_eq_false_of_number hc)]
  split <;> rename_i heq
  case h_7 => rw [hread, Option.map_some]
  all_goals
    rw [(List.cons.inj heq).1] at hc
    exact absurd hc (by decide)

theorem toList_stringText (s : String) :
    (stringText s).toList = '"' :: (s.toList.flatMap escapeChar ++ ['"']) := by
  rw [stringText, String.toList_ofList]

theorem readValue_text (fuel depth : Nat) (s : String) (rest : List Char) :
    readValue (fuel + 1) depth ((stringText s).toList ++ rest) = some (.text s, rest) := by
  rw [toList_stringText, List.cons_append, List.append_assoc, List.singleton_append, readValue,
    skipSpace_cons rfl]
  show (readString (s.toList.flatMap escapeChar ++ '"' :: rest)).map
    (fun p => (p.1.elim Json.unusable Json.text, p.2)) = _
  rw [readString_escaped, Option.map_some, Option.elim_some]

/-- A value without parts has a text of its own. -/
theorem readsBack_leaf (depth : Nat) {j : Json} (text : String)
    (htext : ∀ level, prettyAt level j = text) (hpos : text.toList ≠ [])
    (hread : ∀ fuel rest, Stops rest →
      readValue (fuel + 1) depth (text.toList ++ rest) = some (reread j, rest)) :
    ReadsBack depth j := by
  intro fuel level rest hrest hfuel
  rw [htext] at hfuel ⊢
  have hlength := List.length_pos_iff.mpr hpos
  obtain ⟨fuel, rfl⟩ := Nat.exists_eq_succ_of_ne_zero (n := fuel) (by omega)
  exact hread fuel rest hrest

theorem readsBack_null (depth : Nat) : ReadsBack depth .null :=
  readsBack_leaf depth "null" (fun _ => rfl) (by decide) fun _ _ _ => rfl

theorem readsBack_bool (depth : Nat) (b : Bool) : ReadsBack depth (.bool b) := by
  refine readsBack_leaf depth (if b then "true" else "false") (fun _ => rfl) ?_ fun fuel rest _ => ?_
  · cases b <;> decide
  · cases b <;> rfl

theorem readsBack_number (depth : Nat) (n : JsonNumber) : ReadsBack depth (.number n) := by
  refine readsBack_leaf depth (numberText n) (fun _ => rfl) ?_ fun fuel rest hrest =>
    readValue_number fuel depth n hrest.ends
  obtain ⟨c, tail, htext, -⟩ := head_numberText n
  exact htext ▸ List.cons_ne_nil c tail

theorem readsBack_text (depth : Nat) (s : String) : ReadsBack depth (.text s) := by
  refine readsBack_leaf depth (stringText s) (fun _ => rfl) ?_ fun fuel rest _ =>
    readValue_text fuel depth s rest
  rw [toList_stringText]
  exact List.cons_ne_nil _ _

/-! ## 4. Arrays -/

theorem toList_prettyAt_array (level : Nat) (x : Json) (xs : List Json) :
    (prettyAt level (.array (x :: xs))).toList = '[' ::
      ((prettyElements (level + 1) (x :: xs)).toList ++ ((lineBreak level).toList ++ [']'])) := by
  show ("[" ++ prettyElements (level + 1) (x :: xs) ++ lineBreak level ++ "]").toList = _
  simp

theorem toList_prettyAt_object (level : Nat) (m : String × Json) (ms : List (String × Json)) :
    (prettyAt level (.object (m :: ms))).toList = '\x7b' ::
      ((prettyMembers (level + 1) (m :: ms)).toList ++
        ((lineBreak level).toList ++ ['\x7d'])) := by
  show ("\x7b" ++ prettyMembers (level + 1) (m :: ms) ++ lineBreak level ++ "\x7d").toList = _
  simp

/-- No value starts with a blank or a closing bracket. -/
theorem head_prettyAt (level : Nat) (j : Json) :
    ∃ c tail, (prettyAt level j).toList = c :: tail ∧ isSpace c = false ∧ c ≠ ']' := by
  cases j with
  | null => exact ⟨'n', _, show "null".toList = _ by rfl, by decide⟩
  | bool b =>
    cases b with
    | true => exact ⟨'t', _, show "true".toList = _ by rfl, by decide⟩
    | false => exact ⟨'f', _, show "false".toList = _ by rfl, by decide⟩
  | number n =>
    obtain ⟨c, tail, htext, hc⟩ := head_numberText n
    refine ⟨c, tail, htext, isSpace_eq_false_of_number hc, ?_⟩
    rintro rfl
    exact absurd hc (by decide)
  | text s => exact ⟨'"', _, toList_stringText s, by decide⟩
  | array xs =>
    cases xs with
    | nil => exact ⟨'[', _, show "[]".toList = _ by rfl, by decide⟩
    | cons x xs => exact ⟨'[', _, toList_prettyAt_array level x xs, by decide⟩
  | object ms =>
    cases ms with
    | nil => exact ⟨'\x7b', _, show "\x7b\x7d".toList = _ by rfl, by decide⟩
    | cons m ms => exact ⟨'\x7b', _, toList_prettyAt_object level m ms, by decide⟩
  | unusable => exact ⟨'n', _, show "null".toList = _ by rfl, by decide⟩

theorem toList_prettyElements_singleton (level : Nat) (x : Json) :
    (prettyElements level [x]).toList = (lineBreak level).toList ++ (prettyAt level x).toList :=
  String.toList_append

theorem toList_prettyElements_cons (level : Nat) (x y : Json) (ys : List Json) :
    (prettyElements level (x :: y :: ys)).toList = (lineBreak level).toList ++
      ((prettyAt level x).toList ++ ',' :: (prettyElements level (y :: ys)).toList) := by
  show (lineBreak level ++ prettyAt level x ++ "," ++ prettyElements level (y :: ys)).toList = _
  simp

theorem readValue_lineBreak {depth : Nat} {j : Json} (h : ReadsBack depth j) (fuel level : Nat)
    {rest : List Char} (hrest : Stops rest) (hfuel : 2 * (prettyAt level j).toList.length ≤ fuel) :
    readValue fuel depth ((lineBreak level).toList ++ ((prettyAt level j).toList ++ rest)) =
      some (reread j, rest) := by
  rw [← readValue_skipSpace, skipSpace_append (isSpace_lineBreak level), readValue_skipSpace]
  exact h fuel level rest hrest hfuel

/-- The last element stands before the closing bracket. -/
theorem readElements_last {fuel depth : Nat} {s r rest : List Char} {x : Json}
    (hx : readValue fuel depth s = some (x, r)) (hr : skipSpace r = ']' :: rest) :
    readElements (fuel + 1) depth s = some ([x], rest) := by
  rw [readElements, hx]
  dsimp only
  rw [hr]
  rfl

/-- Any other element stands before a comma. -/
theorem readElements_more {fuel depth : Nat} {s r : List Char} {x : Json}
    (hx : readValue fuel depth s = some (x, ',' :: r)) :
    readElements (fuel + 1) depth s = (readElements fuel depth r).map fun p => (x :: p.1, p.2) := by
  rw [readElements, hx]
  dsimp only
  rw [skipSpace_cons rfl]
  rfl

/-- **The elements are read one after another, up to the closing bracket.** -/
theorem readElements_pretty {depth : Nat} {xs : List Json} (hne : xs ≠ [])
    (h : ∀ x ∈ xs, ReadsBack depth x) (fuel level outer : Nat) (rest : List Char)
    (hfuel : 2 * (prettyElements level xs).toList.length ≤ fuel) :
    readElements fuel depth
        ((prettyElements level xs).toList ++ ((lineBreak outer).toList ++ ']' :: rest)) =
      some (xs.map reread, rest) := by
  have hbreak : 0 < (lineBreak level).toList.length := by
    rw [toList_lineBreak]
    exact Nat.succ_pos _
  induction xs generalizing fuel with
  | nil => exact absurd rfl hne
  | cons x xs ih =>
    have hx := h x List.mem_cons_self
    cases xs with
    | nil =>
      rw [toList_prettyElements_singleton, List.length_append] at hfuel
      obtain ⟨fuel, rfl⟩ := Nat.exists_eq_succ_of_ne_zero (n := fuel) (by omega)
      rw [toList_prettyElements_singleton, List.append_assoc]
      refine readElements_last
        (readValue_lineBreak hx fuel level (stops_lineBreak outer _) (by omega)) ?_
      rw [skipSpace_append (isSpace_lineBreak outer), skipSpace_cons rfl]
    | cons y ys =>
      have hys : ∀ z ∈ y :: ys, ReadsBack depth z := fun z hz => h z (List.mem_cons_of_mem x hz)
      rw [toList_prettyElements_cons, List.length_append, List.length_append, List.length_cons]
        at hfuel
      obtain ⟨fuel, rfl⟩ := Nat.exists_eq_succ_of_ne_zero (n := fuel) (by omega)
      rw [toList_prettyElements_cons, List.append_assoc, List.append_assoc, List.cons_append,
        readElements_more (readValue_lineBreak hx fuel level (stops_comma _) (by omega)),
        ih (List.cons_ne_nil y ys) hys fuel (by omega)]
      rfl

/-- After an opening bracket come elements, unless the closing one comes at once. -/
theorem readValue_bracket (fuel depth : Nat) {s : List Char} {c : Char} {tail : List Char}
    (hs : skipSpace s = c :: tail) (hc : c ≠ ']') :
    readValue (fuel + 1) (depth + 1) ('[' :: s) =
      (readElements fuel depth s).map fun p => (.array p.1, p.2) := by
  rw [← readElements_skipSpace, readValue, skipSpace_cons rfl]
  simp only [hs, Nat.add_one_sub_one, nested_succ]
  split
  · rename_i heq
    exact absurd (List.cons.inj heq).1 hc
  · rfl

/-- The elements start with a blank and then with what no bracket is. -/
theorem skipSpace_prettyElements (level : Nat) (x : Json) (xs : List Json) (rest : List Char) :
    ∃ c tail, skipSpace ((prettyElements level (x :: xs)).toList ++ rest) = c :: tail ∧
      c ≠ ']' := by
  obtain ⟨c, tail, hhead, hspace, hc⟩ := head_prettyAt level x
  have hstart : ∃ after, (prettyElements level (x :: xs)).toList =
      (lineBreak level).toList ++ c :: after := by
    cases xs with
    | nil => exact ⟨_, by rw [toList_prettyElements_singleton, hhead]⟩
    | cons y ys => exact ⟨_, by rw [toList_prettyElements_cons, hhead]; rfl⟩
  obtain ⟨after, hafter⟩ := hstart
  exact ⟨c, after ++ rest, by
    rw [hafter, List.append_assoc, skipSpace_append (isSpace_lineBreak level), List.cons_append,
      skipSpace_cons hspace], hc⟩

theorem readsBack_array {depth : Nat} {xs : List Json} (h : ∀ x ∈ xs, ReadsBack depth x) :
    ReadsBack (depth + 1) (.array xs) := by
  intro fuel level rest hrest hfuel
  cases xs with
  | nil =>
    rw [prettyAt] at hfuel ⊢
    obtain ⟨fuel, rfl⟩ := Nat.exists_eq_succ_of_ne_zero (n := fuel) (by simp at hfuel; omega)
    rw [reread_array]
    rfl
  | cons x xs =>
    rw [toList_prettyAt_array] at hfuel ⊢
    rw [List.length_cons, List.length_append] at hfuel
    obtain ⟨fuel, rfl⟩ := Nat.exists_eq_succ_of_ne_zero (n := fuel) (by omega)
    rw [List.cons_append, List.append_assoc, List.append_assoc, List.singleton_append]
    obtain ⟨c, tail, hstart, hc⟩ := skipSpace_prettyElements (level + 1) x xs
      ((lineBreak level).toList ++ ']' :: rest)
    rw [readValue_bracket fuel depth hstart hc,
      readElements_pretty (List.cons_ne_nil x xs) h fuel (level + 1) level rest (by omega),
      reread_array]
    rfl

/-! ## 5. Objects -/

theorem toList_prettyMembers_singleton (level : Nat) (k : String) (x : Json) :
    (prettyMembers level [(k, x)]).toList = (lineBreak level).toList ++
      ((stringText k).toList ++ ':' :: ' ' :: (prettyAt level x).toList) := by
  show (lineBreak level ++ stringText k ++ ": " ++ prettyAt level x).toList = _
  simp

theorem toList_prettyMembers_cons (level : Nat) (k : String) (x : Json) (m : String × Json)
    (ms : List (String × Json)) :
    (prettyMembers level ((k, x) :: m :: ms)).toList = (lineBreak level).toList ++
      ((stringText k).toList ++ ':' :: ' ' :: ((prettyAt level x).toList ++
        ',' :: (prettyMembers level (m :: ms)).toList)) := by
  show (lineBreak level ++ stringText k ++ ": " ++ prettyAt level x ++ "," ++
    prettyMembers level (m :: ms)).toList = _
  simp

theorem readValue_blank {depth : Nat} {j : Json} (h : ReadsBack depth j) (fuel level : Nat)
    {rest : List Char} (hrest : Stops rest) (hfuel : 2 * (prettyAt level j).toList.length ≤ fuel) :
    readValue fuel depth (' ' :: ((prettyAt level j).toList ++ rest)) = some (reread j, rest) := by
  rw [← readValue_skipSpace]
  show readValue fuel depth (skipSpace ((prettyAt level j).toList ++ rest)) = _
  rw [readValue_skipSpace]
  exact h fuel level rest hrest hfuel

section Members

variable {fuel depth : Nat} {s r : List Char} {x : Json}

/-- A member starts with its name. -/
theorem skipSpace_member (level : Nat) (k : String) (s : List Char) :
    skipSpace ((lineBreak level).toList ++ ((stringText k).toList ++ s)) =
      '"' :: (k.toList.flatMap escapeChar ++ '"' :: s) := by
  rw [skipSpace_append (isSpace_lineBreak level), toList_stringText, List.cons_append,
    skipSpace_cons rfl, List.append_assoc, List.singleton_append]

/-- The last member stands before the closing brace. -/
theorem readMembers_last {rest : List Char} (level : Nat) (k : String)
    (hx : readValue fuel depth s = some (x, r)) (hr : skipSpace r = '\x7d' :: rest) :
    readMembers (fuel + 1) depth
        ((lineBreak level).toList ++ ((stringText k).toList ++ ':' :: s)) =
      some (some [(k, x)], rest) := by
  rw [readMembers, skipSpace_member]
  simp only [readString_escaped, skipSpace_cons (c := ':') rfl, hx, hr, Option.map_some]

/-- Any other member stands before a comma. -/
theorem readMembers_more (level : Nat) (k : String)
    (hx : readValue fuel depth s = some (x, ',' :: r)) :
    readMembers (fuel + 1) depth
        ((lineBreak level).toList ++ ((stringText k).toList ++ ':' :: s)) =
      (readMembers fuel depth r).map fun p => (p.1.map fun ms => (k, x) :: ms, p.2) := by
  rw [readMembers, skipSpace_member]
  simp only [readString_escaped, skipSpace_cons (c := ':') rfl, hx, skipSpace_cons (c := ',') rfl,
    Option.bind_some]

end Members

/-- **The members are read one after another, up to the closing brace.** -/
theorem readMembers_pretty {depth : Nat} {ms : List (String × Json)} (hne : ms ≠ [])
    (h : ∀ m ∈ ms, ReadsBack depth m.2) (fuel level outer : Nat) (rest : List Char)
    (hfuel : 2 * (prettyMembers level ms).toList.length ≤ fuel) :
    readMembers fuel depth
        ((prettyMembers level ms).toList ++ ((lineBreak outer).toList ++ '\x7d' :: rest)) =
      some (some (ms.map fun m => (m.1, reread m.2)), rest) := by
  have hbreak : 0 < (lineBreak level).toList.length := by
    rw [toList_lineBreak]
    exact Nat.succ_pos _
  induction ms generalizing fuel with
  | nil => exact absurd rfl hne
  | cons m ms ih =>
    obtain ⟨k, x⟩ := m
    have hx : ReadsBack depth x := h (k, x) List.mem_cons_self
    cases ms with
    | nil =>
      rw [toList_prettyMembers_singleton] at hfuel ⊢
      simp only [List.length_append, List.length_cons] at hfuel
      obtain ⟨fuel, rfl⟩ := Nat.exists_eq_succ_of_ne_zero (n := fuel) (by omega)
      simp only [List.append_assoc, List.cons_append]
      refine readMembers_last level k
        (readValue_blank hx fuel level (stops_lineBreak outer _) (by omega)) ?_
      rw [skipSpace_append (isSpace_lineBreak outer), skipSpace_cons rfl]
    | cons m ms =>
      have hms : ∀ n ∈ m :: ms, ReadsBack depth n.2 := fun n hn => h n (List.mem_cons_of_mem _ hn)
      rw [toList_prettyMembers_cons] at hfuel ⊢
      simp only [List.length_append, List.length_cons] at hfuel
      obtain ⟨fuel, rfl⟩ := Nat.exists_eq_succ_of_ne_zero (n := fuel) (by omega)
      simp only [List.append_assoc, List.cons_append]
      rw [readMembers_more level k (readValue_blank hx fuel level (stops_comma _) (by omega)),
        ih (List.cons_ne_nil m ms) hms fuel (by omega)]
      rfl

/-- After an opening brace come members, unless the closing one comes at once. -/
theorem readValue_brace (fuel depth : Nat) {s : List Char} {c : Char} {tail : List Char}
    (hs : skipSpace s = c :: tail) (hc : c ≠ '\x7d') :
    readValue (fuel + 1) (depth + 1) ('\x7b' :: s) =
      (readMembers fuel depth s).map fun p => (p.1.elim .unusable .object, p.2) := by
  rw [← readMembers_skipSpace, readValue, skipSpace_cons rfl]
  simp only [hs, Nat.add_one_sub_one, nested_succ]
  split
  · rename_i heq
    exact absurd (List.cons.inj heq).1 hc
  · rfl

/-- The members start with a blank and then with a quote. -/
theorem skipSpace_prettyMembers (level : Nat) (m : String × Json) (ms : List (String × Json))
    (rest : List Char) :
    ∃ tail, skipSpace ((prettyMembers level (m :: ms)).toList ++ rest) = '"' :: tail := by
  obtain ⟨k, x⟩ := m
  cases ms with
  | nil =>
    rw [toList_prettyMembers_singleton, List.append_assoc, List.append_assoc]
    exact ⟨_, skipSpace_member level k _⟩
  | cons m ms =>
    rw [toList_prettyMembers_cons, List.append_assoc, List.append_assoc]
    exact ⟨_, skipSpace_member level k _⟩

theorem readsBack_object {depth : Nat} {ms : List (String × Json)}
    (h : ∀ m ∈ ms, ReadsBack depth m.2) : ReadsBack (depth + 1) (.object ms) := by
  intro fuel level rest hrest hfuel
  cases ms with
  | nil =>
    rw [prettyAt] at hfuel ⊢
    obtain ⟨fuel, rfl⟩ := Nat.exists_eq_succ_of_ne_zero (n := fuel) (by simp at hfuel; omega)
    rw [reread_object]
    rfl
  | cons m ms =>
    rw [toList_prettyAt_object] at hfuel ⊢
    rw [List.length_cons, List.length_append] at hfuel
    obtain ⟨fuel, rfl⟩ := Nat.exists_eq_succ_of_ne_zero (n := fuel) (by omega)
    rw [List.cons_append, List.append_assoc, List.append_assoc, List.singleton_append]
    obtain ⟨tail, hstart⟩ := skipSpace_prettyMembers (level + 1) m ms
      ((lineBreak level).toList ++ '\x7d' :: rest)
    rw [readValue_brace fuel depth hstart (by decide),
      readMembers_pretty (List.cons_ne_nil m ms) h fuel (level + 1) level rest (by omega),
      reread_object]
    rfl

/-! ## 6. Values -/

/-- **A value that nests no deeper than the reader goes is read back, with its numbers reread.** -/
theorem readsBack_of_within {depth : Nat} {j : Json} (h : Within depth j) : ReadsBack depth j := by
  induction h with
  | null => exact readsBack_null _
  | bool b => exact readsBack_bool _ b
  | number n => exact readsBack_number _ n
  | text s => exact readsBack_text _ s
  | array _ ih => exact readsBack_array ih
  | object _ ih => exact readsBack_object ih

/-- **The text of a value is read as the value, with its numbers reread.** -/
theorem parse?_pretty {j : Json} (h : Within nestingLimit j) :
    parse? (pretty j) = some (reread j) := by
  have hread := readsBack_of_within h (2 * (pretty j).toList.length + 2) 0 [] (fun c hc => nomatch hc)
    (Nat.le_add_right _ _)
  rw [List.append_nil] at hread
  rw [pretty] at hread ⊢
  rw [parse?, hread]
  rfl

end Json

end CodeCausality
