import CodeCausality.Proofs.Source.Endpoints
import CodeCausality.Proofs.Source.Resolution

/-!
# Which definition an index keeps

Of several functions with one id an index keeps the first that it is given, so the order of the files
decides:

* `signaturesIn` -- the functions of an id in a file; `supplier?` -- the first file that has one;
* `get?_foldl_add`, `get?_addFiles`, `get?_build` -- **the index holds the first function of the first
  such file**, by induction over the files;
* `Sorted` -- files in the order of their paths; `supplier?_of_sorted` -- where they stand so, the
  first file that has a function of an id is the one with the least path;
* `first_supplied_stands` -- the conclusion, for two orders of the same files.
-/

namespace CodeCausality

namespace Source

/-! ## 1. Functions of an id -/

/-- The functions of an id in a file, in the order of the text; none if it cannot be read. -/
def signaturesIn (file : SourceFile) (id : String) : List Signature :=
  match itemsOf? file.content with
  | some items => (signaturesOf file.path (moduleOf file.path) items).filter fun s => s.id == id
  | none => []

/-- Whether the file has a function of the id. -/
def hasFunction (id : String) (file : SourceFile) : Bool := !(signaturesIn file id).isEmpty

/-- The first of the files that has a function of the id. -/
def supplier? (id : String) (files : List SourceFile) : Option SourceFile :=
  files.find? (hasFunction id)

theorem path_of_mem_signaturesIn {file : SourceFile} {id : String} {f : Signature}
    (h : f ∈ signaturesIn file id) : f.place.path = file.path := by
  unfold signaturesIn at h
  split at h
  · rw [signaturesOf_eq] at h
    obtain ⟨d, -, rfl⟩ := List.mem_map.mp (List.mem_filter.mp h).1
    rfl
  · exact absurd h List.not_mem_nil

theorem head?_signaturesIn_eq_none_iff {file : SourceFile} {id : String} :
    (signaturesIn file id).head? = none ↔ ¬ hasFunction id file = true := by
  rw [List.head?_eq_none_iff, hasFunction, Bool.not_eq_true', Bool.not_eq_false, List.isEmpty_iff]

/-- A file that has a function of the id has a first one. -/
theorem exists_head?_signaturesIn {file : SourceFile} {id : String}
    (h : hasFunction id file = true) :
    ∃ f, (signaturesIn file id).head? = some f ∧ f.place.path = file.path := by
  cases hhead : (signaturesIn file id).head? with
  | none => exact absurd h (head?_signaturesIn_eq_none_iff.mp hhead)
  | some f => exact ⟨f, rfl, path_of_mem_signaturesIn (List.mem_of_head? hhead)⟩

/-! ## 2. What is kept -/

namespace FunctionIndex

variable {strict : Bool} {files : List SourceFile} {x y : FunctionIndex} {id : String}

theorem get?_add_eq (x : FunctionIndex) (s : Signature) (id : String) :
    (x.add s).get? id = (x.get? id).or (if s.id == id then some s else none) := by
  unfold add
  split
  · rename_i htaken
    obtain ⟨f, hf⟩ := Option.isSome_iff_exists.mp htaken
    by_cases hid : s.id = id
    · obtain rfl := hid
      rw [get?, hf, Option.some_or]
    · rw [if_neg (by simpa using hid), Option.or_none]
  · rename_i hfree
    rw [get?, Dictionary.get?_insert]
    by_cases hid : s.id = id
    · obtain rfl := hid
      have hnone : x.get? s.id = none := Option.not_isSome_iff_eq_none.mp hfree
      rw [if_pos rfl, hnone, Option.none_or, if_pos (beq_self_eq_true _)]
    · rw [if_neg hid, if_neg (by simpa using hid), Option.or_none]
      rfl

/-- Of the functions of an id, the one that is there stands, then the first that is added. -/
theorem get?_foldl_add (sigs : List Signature) (x : FunctionIndex) (id : String) :
    (sigs.foldl add x).get? id = (x.get? id).or (sigs.filter fun s => s.id == id).head? := by
  induction sigs generalizing x with
  | nil => rw [List.foldl_nil, List.filter_nil, List.head?_nil, Option.or_none]
  | cons s sigs ih =>
    rw [List.foldl_cons, ih, get?_add_eq, Option.or_assoc, List.filter_cons]
    split
    · rw [Option.some_or, List.head?_cons]
    · rw [Option.none_or]

theorem supplier?_cons (id : String) (file : SourceFile) (files : List SourceFile) :
    (supplier? id (file :: files)).bind (fun file => (signaturesIn file id).head?) =
      ((signaturesIn file id).head?).or
        ((supplier? id files).bind fun file => (signaturesIn file id).head?) := by
  rw [supplier?, List.find?_cons]
  cases hfile : hasFunction id file with
  | true =>
    obtain ⟨f, hf, -⟩ := exists_head?_signaturesIn hfile
    rw [Option.bind_some, hf, Option.some_or]
  | false =>
    rw [head?_signaturesIn_eq_none_iff.mpr (by rw [hfile]; exact Bool.false_ne_true),
      Option.none_or]
    rfl

/-- By induction over the files: what was there stands, then the first file that has one. -/
theorem get?_addFiles (h : x.addFiles strict files = .ok y) (id : String) :
    y.get? id =
      (x.get? id).or ((supplier? id files).bind fun file => (signaturesIn file id).head?) := by
  induction files generalizing x with
  | nil =>
    obtain rfl := Except.ok.inj h
    exact Option.or_none.symm
  | cons file files ih =>
    rw [supplier?_cons]
    rw [addFiles] at h
    split at h
    · rename_i items hitems
      rw [ih h, get?_foldl_add, Option.or_assoc, signaturesIn, hitems]
    · rename_i hnone
      split at h
      · cases h
      · rw [ih h, signaturesIn, hnone, List.head?_nil, Option.none_or]

/-- **The index holds of each id the first function of the first file that has one.** -/
theorem get?_build (h : build strict files = .ok x) (id : String) :
    x.get? id = (supplier? id files).bind fun file => (signaturesIn file id).head? := by
  rw [get?_addFiles h id]
  rfl

/-- A file that has a function of an id that is kept. -/
theorem exists_supplier (h : build strict files = .ok x) {f : Signature} (hf : x.get? id = some f) :
    ∃ file, supplier? id files = some file ∧ (signaturesIn file id).head? = some f ∧
      f.place.path = file.path := by
  rw [get?_build h] at hf
  obtain ⟨file, hfile, hhead⟩ := Option.bind_eq_some_iff.mp hf
  exact ⟨file, hfile, hhead, path_of_mem_signaturesIn (List.mem_of_head? hhead)⟩

theorem get?_build_eq_none_iff (h : build strict files = .ok x) :
    x.get? id = none ↔ ∀ file ∈ files, ¬ hasFunction id file = true := by
  rw [get?_build h, Option.bind_eq_none_iff]
  constructor
  · intro hnone
    refine List.find?_eq_none.mp (Option.eq_none_iff_forall_ne_some.mpr fun file hfile => ?_)
    exact head?_signaturesIn_eq_none_iff.mp (hnone file hfile) (List.find?_some hfile)
  · intro hall file hfile
    exact absurd (List.find?_some hfile) (hall file (List.mem_of_find?_eq_some hfile))

end FunctionIndex

/-! ## 3. Two orders of the same files -/

/-- The files stand in the order of their paths. -/
def Sorted (files : List SourceFile) : Prop := files.Pairwise fun a b => a.path ≤ b.path

instance (files : List SourceFile) : Decidable (Sorted files) :=
  inferInstanceAs (Decidable (List.Pairwise _ _))

/-- Where files stand in the order of their paths, the first with a property has the least path. -/
theorem supplier?_of_sorted {id : String} {files : List SourceFile} (hsorted : Sorted files)
    {first : SourceFile} (hfirst : supplier? id files = some first) :
    ∀ file ∈ files, hasFunction id file = true → first.path ≤ file.path := by
  obtain ⟨-, before, after, rfl, hbefore⟩ := List.find?_eq_some_iff_append.mp hfirst
  intro file hfile hhas
  rcases List.mem_append.mp hfile with hmem | hmem
  · exact absurd hhas (by simpa using hbefore file hmem)
  · have hrest := (List.pairwise_append.mp hsorted).2.1
    rcases List.mem_cons.mp hmem with rfl | hmem
    · exact le_refl _
    · exact (List.pairwise_cons.mp hrest).1 file hmem

/-- Files of different paths are told apart by them. -/
theorem eq_of_path_eq {files : List SourceFile} (hpaths : (files.map (·.path)).Nodup)
    {a b : SourceFile} (ha : a ∈ files) (hb : b ∈ files) (h : a.path = b.path) : a = b :=
  List.inj_on_of_nodup_map hpaths ha hb h

section Permuted

variable {strict : Bool} {files files' : List SourceFile} {x x' : FunctionIndex}
  (hpaths : (files.map (·.path)).Nodup) (hperm : files.Perm files')
  (h : FunctionIndex.build strict files = .ok x)
  (h' : FunctionIndex.build strict files' = .ok x')

include hperm h h'

/-- The same ids are there in any order of the files. -/
theorem get?_eq_none_of_perm (id : String) : x.get? id = none ↔ x'.get? id = none := by
  rw [FunctionIndex.get?_build_eq_none_iff h, FunctionIndex.get?_build_eq_none_iff h']
  exact forall_congr' fun file => by rw [hperm.mem_iff]

include hpaths

/-- **The same function is kept exactly if the first file that has one is the same.** -/
theorem get?_eq_iff_supplier?_eq (id : String) :
    x.get? id = x'.get? id ↔ supplier? id files = supplier? id files' := by
  constructor
  · intro heq
    cases hf : x.get? id with
    | none =>
      have hnone := (FunctionIndex.get?_build_eq_none_iff h).mp hf
      rw [supplier?, supplier?, List.find?_eq_none.mpr hnone,
        List.find?_eq_none.mpr fun file hfile => hnone file (hperm.mem_iff.mpr hfile)]
    | some f =>
      obtain ⟨first, hfirst, -, hpath⟩ := FunctionIndex.exists_supplier h hf
      obtain ⟨first', hfirst', -, hpath'⟩ := FunctionIndex.exists_supplier h' (heq ▸ hf)
      have hmem' := hperm.mem_iff.mpr (List.mem_of_find?_eq_some hfirst')
      rw [hfirst, hfirst', eq_of_path_eq hpaths (List.mem_of_find?_eq_some hfirst) hmem'
        (hpath.symm.trans hpath')]
  · intro heq
    rw [FunctionIndex.get?_build h, FunctionIndex.get?_build h', heq]

theorem toList_eq_iff_supplier?_eq :
    x.toList = x'.toList ↔ ∀ id, supplier? id files = supplier? id files' := by
  constructor
  · intro hlist id
    rw [← get?_eq_iff_supplier?_eq hpaths hperm h h']
    refine Option.ext fun f => ?_
    have hmem : x.get? f.id = some f ↔ x'.get? f.id = some f := by
      rw [← FunctionIndex.mem_toList_iff, ← FunctionIndex.mem_toList_iff, hlist]
    constructor
    · intro hf
      obtain rfl := FunctionIndex.id_of_get? hf
      exact hmem.mp hf
    · intro hf
      obtain rfl := FunctionIndex.id_of_get? hf
      exact hmem.mpr hf
  · intro hsame
    have hget : ∀ id, x.signatures.get? id = x'.signatures.get? id := fun id =>
      (get?_eq_iff_supplier?_eq hpaths hperm h h' id).mpr (hsame id)
    rw [FunctionIndex.toList, FunctionIndex.toList, Dictionary.eq_of_get? hget]

/-- Where no two files have a function of one id, their order is of no account. -/
theorem toList_eq_of_apart (hapart : ∀ id, ∀ a ∈ files, ∀ b ∈ files,
    hasFunction id a = true → hasFunction id b = true → a = b) : x.toList = x'.toList := by
  refine (toList_eq_iff_supplier?_eq hpaths hperm h h').mpr fun id => ?_
  cases hfirst : supplier? id files with
  | none =>
    refine (List.find?_eq_none.mpr fun file hfile => ?_).symm
    exact List.find?_eq_none.mp hfirst file (hperm.mem_iff.mpr hfile)
  | some first =>
    have hhas := List.find?_some hfirst
    have hmem := List.mem_of_find?_eq_some hfirst
    cases hfirst' : supplier? id files' with
    | none => exact absurd hhas (List.find?_eq_none.mp hfirst' first (hperm.mem_iff.mp hmem))
    | some first' =>
      have hmem' := hperm.mem_iff.mpr (List.mem_of_find?_eq_some hfirst')
      rw [hapart id first hmem first' hmem' hhas (List.find?_some hfirst')]

end Permuted

/-- Files that can be read make an index. -/
theorem exists_build (strict : Bool) {files : List SourceFile}
    (h : ∀ file ∈ files, (itemsOf? file.content).isSome = true) :
    ∃ x, FunctionIndex.build strict files = .ok x := by
  have hstrict : strict = true → ∀ file ∈ files, (itemsOf? file.content).isSome = true := fun _ => h
  obtain ⟨units, hread⟩ := exists_readFiles hstrict
  exact ⟨FunctionIndex.ofUnits units, by rw [FunctionIndex.build_eq, hread]; rfl⟩

/-- **Of the functions of an id, the one that is supplied first stands.** Files of different paths
that can be read make an index in any order. It holds of each id the first function of the first file
that has one; so the ids are the same in every order, but the functions are only where the first files
are, as they are if no two files have a function of one id. Where the files stand in the order of
their paths, the function that is kept is from the file whose path comes first. -/
theorem first_supplied_stands {strict : Bool} {files files' : List SourceFile}
    (hread : ∀ file ∈ files, (itemsOf? file.content).isSome = true)
    (hpaths : (files.map (·.path)).Nodup) (hperm : files.Perm files') :
    ∃ x x', FunctionIndex.build strict files = .ok x ∧ FunctionIndex.build strict files' = .ok x' ∧
      (∀ id, x.get? id = (supplier? id files).bind fun file => (signaturesIn file id).head?) ∧
      (∀ id, x.get? id = none ↔ x'.get? id = none) ∧
      (∀ id, x.get? id = x'.get? id ↔ supplier? id files = supplier? id files') ∧
      (x.toList = x'.toList ↔ ∀ id, supplier? id files = supplier? id files') ∧
      ((∀ id, ∀ a ∈ files, ∀ b ∈ files,
        hasFunction id a = true → hasFunction id b = true → a = b) → x.toList = x'.toList) ∧
      (Sorted files → ∀ id f, x.get? id = some f →
        ∀ file ∈ files, hasFunction id file = true → f.place.path ≤ file.path) := by
  obtain ⟨x, hx⟩ := exists_build strict hread
  obtain ⟨x', hx'⟩ := exists_build strict fun file hfile => hread file (hperm.mem_iff.mpr hfile)
  refine ⟨x, x', hx, hx', FunctionIndex.get?_build hx, get?_eq_none_of_perm hperm hx hx',
    get?_eq_iff_supplier?_eq hpaths hperm hx hx', toList_eq_iff_supplier?_eq hpaths hperm hx hx',
    toList_eq_of_apart hpaths hperm hx hx', fun hsorted id f hf file hfile hhas => ?_⟩
  obtain ⟨first, hfirst, -, hpath⟩ := FunctionIndex.exists_supplier hx hf
  rw [hpath]
  exact supplier?_of_sorted hsorted hfirst file hfile hhas

/-! ## 4. Two files of one module -/

/-- Two files of the module `shop`, each with a function `price`. -/
def eastern : SourceFile := ⟨"m", "src/east/shop.rs", "fn price() {}"⟩

def western : SourceFile := ⟨"m", "src/west/shop.rs", "fn price(qty: u64) {}"⟩

def easternPrice : Signature :=
  ⟨"shop::price", "price", [], false, false, ⟨"src/east/shop.rs", 1⟩⟩

def westernPrice : Signature :=
  ⟨"shop::price", "price", [some "qty"], false, false, ⟨"src/west/shop.rs", 1⟩⟩

theorem build_western_first : ∃ x, FunctionIndex.build true [western, eastern] = .ok x ∧
    x.toList = [westernPrice] := by
  have hlist : (FunctionIndex.build true [western, eastern]).toOption.map (·.toList) =
      some [westernPrice] := by
    decide +kernel
  exact exists_ok_of_toOption hlist

theorem build_eastern_first : ∃ x, FunctionIndex.build true [eastern, western] = .ok x ∧
    x.toList = [easternPrice] := by
  have hlist : (FunctionIndex.build true [eastern, western]).toOption.map (·.toList) =
      some [easternPrice] := by
    decide +kernel
  exact exists_ok_of_toOption hlist

/-- In the order of their paths, the function of the eastern file stands. -/
theorem first_supplied_stands_in_order : Sorted [eastern, western] ∧
    ∃ x x', FunctionIndex.build true [eastern, western] = .ok x ∧
      FunctionIndex.build true [western, eastern] = .ok x' ∧
      (∀ f, x.get? "shop::price" = some f → f.place.path ≤ "src/east/shop.rs") ∧
      x.get? "shop::price" ≠ x'.get? "shop::price" := by
  have hread : ∀ file ∈ [eastern, western], (itemsOf? file.content).isSome = true := by
    decide +kernel
  have hsorted : Sorted [eastern, western] := by decide
  have heast : hasFunction "shop::price" eastern = true := by decide +kernel
  have hwest : hasFunction "shop::price" western = true := by decide +kernel
  obtain ⟨x, x', hx, hx', -, -, hsame, -, -, hleast⟩ :=
    @first_supplied_stands true _ _ hread (by decide) (.swap western eastern [])
  refine ⟨hsorted, x, x', hx, hx', fun f hf => ?_, fun heq => ?_⟩
  · exact hleast hsorted _ f hf eastern List.mem_cons_self heast
  · have hfirst := (hsame "shop::price").mp heq
    rw [supplier?, supplier?, List.find?_cons_of_pos heast, List.find?_cons_of_pos hwest] at hfirst
    exact absurd (Option.some.inj hfirst) (by decide)

/-- **The order in which files are supplied decides which function is kept.** Of the two files the
western one comes later in the order of their paths, but its function stands where it is supplied
first. -/
theorem later_path_stands : eastern.path < western.path ∧
    [western, eastern].Perm [eastern, western] ∧
    (∃ x, FunctionIndex.build true [western, eastern] = .ok x ∧ x.toList = [westernPrice]) ∧
    ∃ x, FunctionIndex.build true [eastern, western] = .ok x ∧ x.toList = [easternPrice] :=
  ⟨by decide, .swap eastern western [], build_western_first, build_eastern_first⟩

end Source

end CodeCausality
