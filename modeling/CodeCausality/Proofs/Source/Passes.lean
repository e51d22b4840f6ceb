import CodeCausality.Proofs.Source.Extraction
import CodeCausality.Source.Passes

/-!
# Both passes visit the same functions

The two passes over the files go through items, methods and inline modules each on its own. Both
visit what `definitions` lists, in its order:

* `signaturesOf_eq`, `walksOf_eq` -- by induction over the items, modules with what they hold;
* `FunctionIndex.build_eq` -- so the first pass makes the index of the files that can be read, and
  fails where reading them fails;
* `extract_eq` -- **and the structure is put together from the walks through these files' functions.**
-/

namespace CodeCausality

namespace Source

/-! ## 1. One file -/

section Items

variable {α : Type} {path : String}

mutual

theorem signaturesOfItem_eq (outer : String) : ∀ i : Item,
    signaturesOfItem path outer i = (definitionsOfItem outer i).map (·.signature path)
  | .function _ => rfl
  | .implementation (some t) methods => by
    rw [signaturesOfItem, definitionsOfItem, List.map_map]
    rfl
  | .implementation none _ => rfl
  | .module name items => by
    rw [signaturesOfItem, definitionsOfItem, signaturesOf_eq]
  | .other => rfl

/-- **The first pass lists the signatures of the definitions.** -/
theorem signaturesOf_eq (outer : String) : ∀ items : List Item,
    signaturesOf path outer items = (definitions outer items).map (·.signature path)
  | [] => rfl
  | i :: rest => by
    rw [signaturesOf, definitions, List.map_append, signaturesOfItem_eq, signaturesOf_eq]

end

theorem walkFunction?_eq (index : FunctionIndex) (u : SourceUnit) (d : Definition) :
    walkFunction? (α := α) index u.module u.path d.outer d.function = walkOf? index u d := rfl

variable (index : FunctionIndex) (u : SourceUnit)

mutual

theorem walksOfItem_eq (outer : String) : ∀ i : Item,
    walksOfItem (α := α) index u.module u.path outer i =
      (definitionsOfItem outer i).filterMap (walkOf? index u)
  | .function f => by
    rw [walksOfItem, definitionsOfItem, List.filterMap_cons, List.filterMap_nil,
      ← walkFunction?_eq index u ⟨outer, false, f⟩]
    dsimp only
    cases walkFunction? (α := α) index u.module u.path outer f <;> rfl
  | .implementation (some t) methods => by
    rw [walksOfItem, definitionsOfItem, List.filterMap_map]
    rfl
  | .implementation none _ => rfl
  | .module name items => by
    rw [walksOfItem, definitionsOfItem, walksOf_eq]
  | .other => rfl

/-- **The second pass walks through the definitions that the index holds.** -/
theorem walksOf_eq (outer : String) : ∀ items : List Item,
    walksOf (α := α) index u.module u.path outer items =
      (definitions outer items).filterMap (walkOf? index u)
  | [] => rfl
  | i :: rest => by
    rw [walksOf, definitions, List.filterMap_append, walksOfItem_eq, walksOf_eq]

end

end Items

/-! ## 2. All files -/

theorem addFiles_eq (strict : Bool) (x : FunctionIndex) (files : List SourceFile) :
    x.addFiles strict files = (readFiles strict files).map fun units =>
      (units.flatMap fun u => u.definitions.map (·.signature u.path)).foldl FunctionIndex.add x := by
  induction files generalizing x with
  | nil => rfl
  | cons file rest ih =>
    rw [FunctionIndex.addFiles, readFiles, SourceUnit.ofFile?]
    cases itemsOf? file.content with
    | none =>
      dsimp only [Option.map_none]
      cases strict with
      | true => rfl
      | false => exact ih x
    | some items =>
      dsimp only [Option.map_some]
      rw [ih, signaturesOf_eq]
      cases readFiles strict rest with
      | error e => rfl
      | ok units =>
        simp only [Except.map, List.flatMap_cons, List.foldl_append]

/-- **The first pass indexes the files that can be read.** -/
theorem FunctionIndex.build_eq (strict : Bool) (files : List SourceFile) :
    FunctionIndex.build strict files = (readFiles strict files).map FunctionIndex.ofUnits :=
  addFiles_eq strict empty files

variable {α : Type}

theorem walksOfFile_eq (index : FunctionIndex) (file : SourceFile) :
    walksOfFile (α := α) index file = (SourceUnit.ofFile? file).toList.flatMap fun u =>
      u.definitions.filterMap (walkOf? index u) := by
  rw [walksOfFile, SourceUnit.ofFile?]
  cases itemsOf? file.content with
  | none => rfl
  | some items =>
    simp only [Option.map_some, Option.toList_some, List.flatMap_cons, List.flatMap_nil,
      List.append_nil]
    exact walksOf_eq index ⟨file.path, definitions (moduleOf file.path) items⟩ _ items

/-- The second pass walks through the files that the first could read. -/
theorem flatMap_walksOfFile_eq {strict : Bool} {files : List SourceFile} {units : List SourceUnit}
    (h : readFiles strict files = .ok units) (index : FunctionIndex) :
    files.flatMap (walksOfFile (α := α) index) =
      units.flatMap fun u => u.definitions.filterMap (walkOf? index u) := by
  induction files generalizing units with
  | nil =>
    obtain rfl := Except.ok.inj h
    rfl
  | cons file rest ih =>
    rw [List.flatMap_cons, walksOfFile_eq]
    rw [readFiles] at h
    split at h
    · rename_i u hu
      obtain ⟨later, hlater, rfl⟩ := map_eq_ok_iff.mp h
      rw [hu, ih hlater]
      simp only [Option.toList_some, List.flatMap_cons, List.flatMap_nil, List.append_nil]
    · rename_i hnone
      split at h
      · cases h
      · rw [hnone, ih h]
        rfl

/-- **The structure is put together from the walks through all functions that can be read.** -/
theorem extract_eq (strict : Bool) (files : List SourceFile) :
    extract (α := α) strict files =
      (readFiles strict files).map fun units => merged (walks units) := by
  rw [extract, FunctionIndex.build_eq]
  cases h : readFiles strict files with
  | error e => rfl
  | ok units =>
    simp only [Except.map]
    rw [flatMap_walksOfFile_eq h]
    rfl

theorem extract_of_readFiles {strict : Bool} {files : List SourceFile} {units : List SourceUnit}
    (h : readFiles strict files = .ok units) :
    extract (α := α) strict files = .ok (merged (walks units)) := by
  rw [extract_eq, h]
  rfl

end Source

end CodeCausality
