import CodeCausality.Proofs.Source.Creation
import CodeCausality.Proofs.Source.Grammar.File
import CodeCausality.Proofs.Source.Passes

/-!
# What a qualified call resolves to

A call with at least two segments is decided by its last two, compared with the texts of the ids. An
id is the module of a file, the modules and the type inside of it, and a name; so the two segments
stand either after something else or, for a function at the top of a file, alone.

* `EndsIn`, `LastTwo` -- an id ends in two segments; these are its last two;
* `NamesLast` -- every signature has the last segment of its id as its name; `build_namesLast` --
  so does the index of files that can be read;
* `Fits`, `resolveCall_eq_some_iff` -- **a qualified call resolves to the only function whose id ends
  in its last two segments or is its name in the caller's module**;
* `qualified_calls_resolve` -- when a call reaches the one function that it names;
* `resolved_by_last_two_segments` -- what it can be resolved to at all.
-/

namespace CodeCausality

namespace Source

/-! ## 1. The last two segments -/

/-- The id ends in the two segments, with something before them. -/
def EndsIn (id q n : String) : Prop := ∃ outer, id = within (within outer q) n

/-- The two are the last segments of the id, whatever stands before them. -/
def LastTwo (id q n : String) : Prop := id = within q n ∨ EndsIn id q n

namespace FunctionIndex

theorem endsWith_iff {id q n : String} : endsWith id q n = true ↔ EndsIn id q n := by
  unfold endsWith EndsIn
  rw [List.isSuffixOf_iff_suffix]
  constructor
  · rintro ⟨outer, houter⟩
    refine ⟨String.ofList outer, String.toList_injective ?_⟩
    rw [← houter]
    simp [within]
  · rintro ⟨outer, rfl⟩
    exact ⟨outer.toList, by simp [within]⟩

/-! ## 2. Names in the index -/

/-- The name of every signature is the last segment of its id. -/
def NamesLast (x : FunctionIndex) : Prop :=
  ∀ f, x.get? f.id = some f → Plain f.name ∧ ∃ outer, f.id = within outer f.name

theorem namesLast_ofUnits {units : List SourceUnit} (h : Spelled units) :
    (ofUnits units).NamesLast := by
  intro f hf
  obtain ⟨u, hu, d, hd, rfl⟩ := exists_signature hf
  exact ⟨(h u hu d hd).name.1, d.outer, rfl⟩

/-- **In the index of files that can be read, a function has the last segment of its id as its
name.** -/
theorem build_namesLast {strict : Bool} {files : List SourceFile} {x : FunctionIndex}
    (h : build strict files = .ok x) : x.NamesLast := by
  rw [build_eq] at h
  obtain ⟨units, hread, rfl⟩ := map_eq_ok_iff.mp h
  exact namesLast_ofUnits (spelled_of_readFiles hread)

section NamesLast

variable {x : FunctionIndex} {f g : Signature} {q n module : String}

theorem mem_toList_iff : f ∈ x.toList ↔ x.get? f.id = some f := by
  refine ⟨get?_of_mem_toList, fun h => ?_⟩
  exact List.mem_map.mpr ⟨(f.id, f), x.signatures.get?_eq_some_iff.mp h, rfl⟩

theorem nodup_toList (x : FunctionIndex) : x.toList.Nodup := by
  have hids : x.toList.map (·.id) = x.signatures.keys := by
    unfold toList Dictionary.values Dictionary.keys
    rw [List.map_map]
    exact List.map_congr_left fun e he => (x.keyed e he).symm
  have hkeys : x.signatures.keys.Nodup := x.signatures.keys_increasing.imp fun h => ne_of_lt h
  exact List.Nodup.of_map _ (hids ▸ hkeys)

/-- What is named is found by its name. -/
theorem mem_named_iff : f ∈ x.named n ↔ x.get? f.id = some f ∧ f.name = n := by
  unfold named
  rw [List.mem_filter, mem_toList_iff, beq_iff_eq]

theorem single?_eq_some_iff {β : Type} {xs : List β} (hnodup : xs.Nodup) {b : β} :
    single? xs = some b ↔ b ∈ xs ∧ ∀ c ∈ xs, c = b := by
  cases xs with
  | nil => simp [single?]
  | cons a rest =>
    cases rest with
    | nil =>
      simp only [single?, Option.some.injEq, List.mem_singleton, forall_eq]
      exact ⟨fun h => ⟨h.symm, h⟩, fun h => h.2⟩
    | cons a' rest =>
      refine iff_of_false (fun h => nomatch h) ?_
      rintro ⟨-, hall⟩
      have heq : a = a' := (hall a (by simp)).trans (hall a' (by simp)).symm
      exact (List.nodup_cons.mp hnodup).1 (heq ▸ List.mem_cons_self)

theorem resolveCall_qualified (x : FunctionIndex) (front : List String) (q n module : String) :
    x.resolveCall (front ++ [q, n]) module = single? ((x.named n).filter fun s =>
      endsWith s.id q n || s.id == within module n) := by
  unfold resolveCall
  simp [List.reverse_append]

theorem named_of_resolveCall {front : List String}
    (h : x.resolveCall (front ++ [q, n]) module = some f) : x.get? f.id = some f ∧ f.name = n := by
  rw [resolveCall_qualified] at h
  exact mem_named_iff.mp (List.mem_filter.mp (eq_some_of_single? h)).1

/-! ## 3. Resolution -/

/-- What a call with the last two segments may be resolved to from inside of a module: an id that
ends in them, or the name as one of the module. -/
def Fits (module q n id : String) : Prop := EndsIn id q n ∨ id = within module n

theorem mem_candidates_iff : f ∈ (x.named n).filter (fun s =>
      endsWith s.id q n || s.id == within module n) ↔
    (x.get? f.id = some f ∧ f.name = n) ∧ Fits module q n f.id := by
  rw [List.mem_filter, mem_named_iff, Bool.or_eq_true, endsWith_iff, beq_iff_eq]
  rfl

theorem Fits.exists_within (h : Fits module q n f.id) : ∃ outer, f.id = within outer n := by
  rcases h with ⟨outer, houter⟩ | hlocal
  · exact ⟨_, houter⟩
  · exact ⟨_, hlocal⟩

variable (hx : x.NamesLast)

include hx

/-- What a call may be resolved to has its name. -/
theorem Fits.name_eq (h : Fits module q n f.id) (hn : ':' ∉ n.toList) (hf : x.get? f.id = some f) :
    f.name = n := by
  obtain ⟨hplain, outer, houter⟩ := hx f hf
  obtain ⟨outer', houter'⟩ := h.exists_within
  exact ((within_eq_within_iff hplain.noColon hn).mp (houter.symm.trans houter')).2

/-- **A qualified call resolves to the only function that it may be resolved to.** -/
theorem resolveCall_eq_some_iff (hn : ':' ∉ n.toList) (front : List String) :
    x.resolveCall (front ++ [q, n]) module = some f ↔ x.get? f.id = some f ∧
      Fits module q n f.id ∧ ∀ g, x.get? g.id = some g → Fits module q n g.id → g = f := by
  have hnodup : ((x.named n).filter fun s =>
      endsWith s.id q n || s.id == within module n).Nodup :=
    (x.nodup_toList.filter _).filter _
  rw [resolveCall_qualified, single?_eq_some_iff hnodup, mem_candidates_iff]
  constructor
  · rintro ⟨⟨⟨hf, -⟩, hfits⟩, honly⟩
    refine ⟨hf, hfits, fun g hg hgfits => honly g ?_⟩
    exact mem_candidates_iff.mpr ⟨⟨hg, hgfits.name_eq hx hn hg⟩, hgfits⟩
  · rintro ⟨hf, hfits, honly⟩
    refine ⟨⟨⟨hf, hfits.name_eq hx hn hf⟩, hfits⟩, fun g hg => ?_⟩
    obtain ⟨⟨hg, -⟩, hgfits⟩ := mem_candidates_iff.mp hg
    exact honly g hg hgfits

end NamesLast

end FunctionIndex

/-! ## 4. Files that can be read -/

section Build

variable {strict : Bool} {files : List SourceFile} {x : FunctionIndex} {f : Signature}
  {q n module : String}

/-- A file with a function at its top, a method and two calls, and one with a function. -/
def shop : List SourceFile :=
  [⟨"m", "src/cart.rs",
    "pub fn new() {} impl Cart { pub fn total() {} } fn run() { Vec::new(); util::helper(); }"⟩,
   ⟨"m", "src/util.rs", "pub fn helper() {}"⟩]

/-- Its method, the functions of its first file and that of its second. -/
def shopSignatures : List Signature :=
  [⟨"cart::Cart::total", "total", [], false, true, ⟨"src/cart.rs", 1⟩⟩,
   ⟨"cart::new", "new", [], false, false, ⟨"src/cart.rs", 1⟩⟩,
   ⟨"cart::run", "run", [], false, false, ⟨"src/cart.rs", 1⟩⟩,
   ⟨"util::helper", "helper", [], false, false, ⟨"src/util.rs", 1⟩⟩]

theorem exists_shop_index :
    ∃ x, FunctionIndex.build true shop = .ok x ∧ x.toList = shopSignatures := by
  have hlist : (FunctionIndex.build true shop).toOption.map (·.toList) = some shopSignatures := by
    decide +kernel
  exact exists_ok_of_toOption hlist

section Shop

variable (htoList : x.toList = shopSignatures)

include htoList

theorem mem_shop_iff : x.get? f.id = some f ↔ f ∈ shopSignatures :=
  htoList ▸ FunctionIndex.mem_toList_iff.symm

theorem get?_shop_eq_none {id : String} (h : ∀ g ∈ shopSignatures, g.id ≠ id) :
    x.get? id = none := by
  refine Option.eq_none_iff_forall_ne_some.mpr fun g hg => ?_
  have hid := FunctionIndex.id_of_get? hg
  exact h g ((mem_shop_iff htoList).mp (hid.symm ▸ hg)) hid

theorem resolveCall_shop (q n module : String) :
    x.resolveCall [q, n] module = FunctionIndex.single?
      ((shopSignatures.filter (·.name == n)).filter fun s =>
        FunctionIndex.endsWith s.id q n || s.id == within module n) := by
  rw [← htoList]
  exact x.resolveCall_qualified [] q n module

end Shop

/-- **When a qualified call reaches the function that it names.** Of a function whose id has the last
two segments of the call, as no other has, while its name is no other function of the caller's
module, it is reached if something stands before the two; if they are all of the id, only from its
own module, and from any other nothing is. -/
theorem qualified_calls_resolve (hbuild : FunctionIndex.build strict files = .ok x)
    (hf : x.get? f.id = some f) (hn : ':' ∉ n.toList) (hlast : LastTwo f.id q n)
    (hother : ∀ g, x.get? g.id = some g → LastTwo g.id q n → g = f)
    (hlocal : ∀ g, x.get? g.id = some g → g.id = within module n → g = f)
    (front : List String) :
    (EndsIn f.id q n ∨ q = module → x.resolveCall (front ++ [q, n]) module = some f) ∧
      (¬ EndsIn f.id q n → q ≠ module → x.resolveCall (front ++ [q, n]) module = none) := by
  have hx := FunctionIndex.build_namesLast hbuild
  have honly : ∀ g, x.get? g.id = some g → FunctionIndex.Fits module q n g.id → g = f := by
    rintro g hg (hends | hhere)
    · exact hother g hg (.inr hends)
    · exact hlocal g hg hhere
  constructor
  · intro hreach
    refine (FunctionIndex.resolveCall_eq_some_iff hx hn front).mpr ⟨hf, ?_, honly⟩
    rcases hreach with hends | rfl
    · exact .inl hends
    · exact hlast.symm
  · intro hends hmodule
    refine Option.eq_none_iff_forall_ne_some.mpr fun g hg => ?_
    obtain ⟨hfound, hfits, -⟩ := (FunctionIndex.resolveCall_eq_some_iff hx hn front).mp hg
    obtain rfl := honly g hfound hfits
    -- the id is no more than the two segments, so it is a name in the module that is its first
    have hwhole := hlast.resolve_right hends
    have hhere := hfits.resolve_left hends
    exact hmodule ((within_eq_within_iff hn hn).mp (hwhole.symm.trans hhere)).1

/-- The method of the shop is reached from another file. -/
theorem qualified_calls_resolve_method : ∃ x f, FunctionIndex.build true shop = .ok x ∧
    f.id = "cart::Cart::total" ∧ x.resolveCall ["Cart", "total"] "util" = some f := by
  obtain ⟨x, hbuild, htoList⟩ := exists_shop_index
  let f : Signature := ⟨"cart::Cart::total", "total", [], false, true, ⟨"src/cart.rs", 1⟩⟩
  have hall : ∀ g ∈ shopSignatures, (g.id = within "Cart" "total" ∨
      FunctionIndex.endsWith g.id "Cart" "total" = true) ∨ g.id = within "util" "total" →
      g = f := by decide
  have hends : EndsIn f.id "Cart" "total" := ⟨"cart", rfl⟩
  refine ⟨x, f, hbuild, rfl, (qualified_calls_resolve (n := "total") hbuild
    ((mem_shop_iff htoList).mpr List.mem_cons_self) (by decide) (.inr hends)
    (fun g hg hlast => hall g ((mem_shop_iff htoList).mp hg) (.inl ?_))
    (fun g hg hhere => hall g ((mem_shop_iff htoList).mp hg) (.inr hhere)) []).1 (.inl hends)⟩
  exact hlast.imp_right FunctionIndex.endsWith_iff.mpr

/-- **A call does not reach the function that it names at the top of another file**, though no other
function has these two segments, and though it would without the first of them. -/
theorem call_misses_function_of_file : ∃ x f, FunctionIndex.build true shop = .ok x ∧
    x.get? f.id = some f ∧ LastTwo f.id "util" "helper" ∧
    (∀ g, x.get? g.id = some g → LastTwo g.id "util" "helper" → g = f) ∧
    (∀ g, x.get? g.id = some g → g.id ≠ within "cart" "helper") ∧
    x.resolveCall ["util", "helper"] "cart" = none ∧ x.resolveCall ["helper"] "cart" = some f := by
  obtain ⟨x, hbuild, htoList⟩ := exists_shop_index
  let f : Signature := ⟨"util::helper", "helper", [], false, false, ⟨"src/util.rs", 1⟩⟩
  have hall : ∀ g ∈ shopSignatures, (g.id = within "util" "helper" ∨
      FunctionIndex.endsWith g.id "util" "helper" = true) → g = f := by decide
  have hnone : ∀ g ∈ shopSignatures, g.id ≠ within "cart" "helper" := by decide
  refine ⟨x, f, hbuild, (mem_shop_iff htoList).mpr (by decide), .inl rfl, fun g hg hlast => ?_,
    fun g hg => hnone g ((mem_shop_iff htoList).mp hg), ?_, ?_⟩
  · exact hall g ((mem_shop_iff htoList).mp hg) (hlast.imp_right FunctionIndex.endsWith_iff.mpr)
  · rw [resolveCall_shop htoList]
    decide
  · have hlocal := get?_shop_eq_none htoList hnone
    unfold FunctionIndex.resolveCall
    simp only [List.reverse_singleton]
    rw [hlocal, FunctionIndex.named, htoList]
    decide

/-- **What a qualified call can be resolved to.** It is a function of the index whose id ends in the
last two segments of the call, or which has its last segment as its name in the caller's module, and
the only one of this kind. So unless the caller's module has a function of that name, and is not
itself what the call says, these are the last two segments of the id; and unless a file has the
function of the two segments, and is not the caller's module, of no other. -/
theorem resolved_by_last_two_segments (hbuild : FunctionIndex.build strict files = .ok x)
    {front : List String} (h : x.resolveCall (front ++ [q, n]) module = some f) :
    x.get? f.id = some f ∧ FunctionIndex.Fits module q n f.id ∧
      (∀ g, x.get? g.id = some g → FunctionIndex.Fits module q n g.id → g = f) ∧
      (x.get? (within module n) = none ∨ q = module → LastTwo f.id q n) ∧
      (x.get? (within q n) = none ∨ q = module →
        ∀ g, x.get? g.id = some g → LastTwo g.id q n → g = f) := by
  have hx := FunctionIndex.build_namesLast hbuild
  have hn : ':' ∉ n.toList := by
    obtain ⟨hf, hname⟩ := FunctionIndex.named_of_resolveCall h
    exact hname ▸ (hx f hf).1.noColon
  obtain ⟨hf, hfits, honly⟩ := (FunctionIndex.resolveCall_eq_some_iff hx hn front).mp h
  refine ⟨hf, hfits, honly, fun hfree => ?_, fun hfree g hg hlast => honly g hg ?_⟩
  · rcases hfits with hends | hhere
    · exact .inr hends
    · rcases hfree with hnone | rfl
      · rw [← hhere, hf] at hnone
        cases hnone
      · exact .inl hhere
  · rcases hlast with hwhole | hends
    · rcases hfree with hnone | rfl
      · rw [← hwhole, hg] at hnone
        cases hnone
      · exact .inr hwhole
    · exact .inl hends

/-- The method is the only function of the shop with its last two segments. -/
theorem resolved_by_last_two_segments_method : ∃ x f, FunctionIndex.build true shop = .ok x ∧
    x.resolveCall ["Cart", "total"] "util" = some f ∧ LastTwo f.id "Cart" "total" ∧
    ∀ g, x.get? g.id = some g → LastTwo g.id "Cart" "total" → g = f := by
  obtain ⟨x, hbuild, htoList⟩ := exists_shop_index
  have hcall : x.resolveCall ([] ++ ["Cart", "total"]) "util" =
      some ⟨"cart::Cart::total", "total", [], false, true, ⟨"src/cart.rs", 1⟩⟩ := by
    rw [List.nil_append, resolveCall_shop htoList]
    decide
  obtain ⟨-, -, -, hlast, honly⟩ := resolved_by_last_two_segments hbuild hcall
  exact ⟨x, _, hbuild, hcall, hlast (.inl (get?_shop_eq_none htoList (by decide))),
    honly (.inl (get?_shop_eq_none htoList (by decide)))⟩

/-- **A call resolves to a function of the caller's module with which it has only the last segment in
common.** -/
theorem call_resolves_to_other_function : ∃ x f, FunctionIndex.build true shop = .ok x ∧
    x.resolveCall ["Vec", "new"] "cart" = some f ∧ f.id = "cart::new" ∧
    ¬ LastTwo f.id "Vec" "new" := by
  obtain ⟨x, hbuild, htoList⟩ := exists_shop_index
  refine ⟨x, ⟨"cart::new", "new", [], false, false, ⟨"src/cart.rs", 1⟩⟩, hbuild, ?_, rfl, ?_⟩
  · rw [resolveCall_shop htoList]
    decide
  · rintro (hwhole | hends)
    · exact absurd hwhole (by decide)
    · exact absurd (FunctionIndex.endsWith_iff.mpr hends) (by decide)

end Build

end Source

end CodeCausality
