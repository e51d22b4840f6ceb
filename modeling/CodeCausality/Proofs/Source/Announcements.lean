import CodeCausality.Proofs.Graph.OutDegree
import CodeCausality.Proofs.Source.Identity
import CodeCausality.Proofs.Source.Invariant
import CodeCausality.Proofs.Source.Versions

/-!
# What becomes of printing and logging

An invocation that prints or logs leaves an effect whose id has an exclamation mark in its last
segment. No other id has one there, and nothing reads an effect, so such an effect leads nowhere:

* `Announced` -- the ids of the effects of invocations of a name; `shortName_of_announced` -- **their
  short name is this name**;
* `Quiet` -- ids without the mark in their last segment; `Hushed` -- walks that read only from these;
* `hushed_invariant`, `Walked.hushed` -- **all walks are such**, since each construct keeps it;
* `quiet_source_of_given`, `effect_of_announced` -- so no edge leads from what is announced, and it is
  pruned exactly if it is a pure side effect;
* `announced_effects_pruned` -- the conclusion, for the names that the walk knows and those that are
  pure by default.
-/

namespace CodeCausality

namespace Source

/-! ## 1. Ids of effects -/

/-- The id of the effect of an invocation of the name: in whatever function, at whatever line, with or
without a number that tells it apart from others there. -/
def Announced (name id : String) : Prop :=
  ∃ (function : String) (line : Nat),
    id = within function (name ++ "!") ++ "@" ++ toString line ∨
      ∃ n : Nat, id = within function (name ++ "!") ++ "@" ++ toString line ++ "#" ++ toString n

/-- The last segment of the id has no exclamation mark. -/
def Quiet (id : String) : Prop :=
  ∃ outer x, id = within outer x ∧ ':' ∉ x.toList ∧ '!' ∉ x.toList

/-- A name as it stands in a text: without the marks that ids are put together with, and without
points. -/
structure PlainName (x : String) : Prop extends Plain x where
  noPoint : '.' ∉ x.toList

instance (x : String) : Decidable (PlainName x) :=
  decidable_of_iff (Plain x ∧ '.' ∉ x.toList) ⟨fun ⟨h, hpoint⟩ => ⟨h, hpoint⟩,
    fun h => ⟨h.toPlain, h.noPoint⟩⟩

section Announced

variable {name id : String}

/-- The last segment of such an id: the name, the mark, and what tells the effect apart. -/
theorem Announced.exists_within (h : Announced name id) : ∃ function tail,
    id = within function (name ++ "!@" ++ tail) ∧ ':' ∉ tail.toList ∧ '.' ∉ tail.toList := by
  have hdigits {c : Char} (hc : c.isDigit = false) (n : Nat) : c ∉ (toString n).toList := by
    simpa using not_mem_toDigits hc n
  obtain ⟨function, line, rfl | ⟨n, rfl⟩⟩ := h
  · refine ⟨function, toString line, ?_, hdigits rfl line, hdigits rfl line⟩
    simp only [within, String.append_assoc]
    rfl
  · refine ⟨function, toString line ++ "#" ++ toString n, ?_, ?_, ?_⟩
    · simp only [within, String.append_assoc]
      rfl
    · simp [not_mem_toDigits (c := ':') rfl]
    · simp [not_mem_toDigits (c := '.') rfl]

/-- What is announced is not quiet: an id has one last segment. -/
theorem Announced.not_quiet (hname : ':' ∉ name.toList) (h : Announced name id) : ¬ Quiet id := by
  obtain ⟨function, tail, rfl, htail, -⟩ := h.exists_within
  rintro ⟨outer, x, heq, hcolon, hbang⟩
  have hsegment : ':' ∉ (name ++ "!@" ++ tail).toList := by simp [hname, htail]
  obtain ⟨-, rfl⟩ := (within_eq_within_iff hsegment hcolon).mp heq
  exact hbang (by simp)

end Announced

/-! ## 2. Short names -/

theorem beforePathMark_append {s : List Char} (h : ':' ∉ s) (rest : List Char) :
    SideEffect.beforePathMark (s ++ ':' :: ':' :: rest) = s := by
  induction s with
  | nil => rfl
  | cons c s ih =>
    rw [List.mem_cons, not_or] at h
    obtain ⟨hc, hs⟩ := h
    rw [List.cons_append, SideEffect.beforePathMark, ih hs]
    rintro _ rfl
    exact absurd rfl hc

/-- The last segment of an id is the name that it was put together from. -/
theorem lastSegment_within {x : String} (hx : ':' ∉ x.toList) (outer : String) :
    SideEffect.lastSegment (within outer x).toList = x.toList := by
  have hreverse : (within outer x).toList.reverse =
      x.toList.reverse ++ ':' :: ':' :: outer.toList.reverse := by
    simp [toList_within]
  rw [SideEffect.lastSegment, hreverse,
    beforePathMark_append (fun hmem => hx (List.mem_reverse.mp hmem)), List.reverse_reverse]

theorem afterLast_of_not_mem {c : Char} {s : List Char} (h : c ∉ s) :
    SideEffect.afterLast c s = s := by
  rw [SideEffect.afterLast, List.takeWhile_eq_self_iff.mpr, List.reverse_reverse]
  intro d hd
  exact bne_iff_ne.mpr fun heq => h (heq ▸ List.mem_reverse.mp hd)

/-- **The short name of the effect of an invocation is the name of the invocation**, in lower case. -/
theorem shortName_of_announced {name id : String} (hname : PlainName name)
    (h : Announced name id) : SideEffect.shortName id = Text.lower name.toList := by
  obtain ⟨function, tail, rfl, hcolon, hpoint⟩ := h.exists_within
  have hsegment : ':' ∉ (name ++ "!@" ++ tail).toList := by simp [hname.noColon, hcolon]
  have hsingle : '.' ∉ (name ++ "!@" ++ tail).toList := by simp [hname.noPoint, hpoint]
  have hbefore : (name ++ "!@" ++ tail).toList.takeWhile (· != '@') = name.toList ++ ['!'] := by
    have hlist : (name ++ "!@" ++ tail).toList = (name.toList ++ ['!']) ++ '@' :: tail.toList := by
      simp
    rw [hlist, List.takeWhile_append_of_pos, List.takeWhile_cons_of_neg (by simp), List.append_nil]
    intro c hc
    refine bne_iff_ne.mpr fun heq => ?_
    subst heq
    rcases List.mem_append.mp hc with hc | hc
    · exact hname.noAt hc
    · exact absurd hc (by decide)
  have hdrop : (name.toList ++ ['!']).reverse.dropWhile (· == '!') = name.toList.reverse := by
    rw [List.reverse_append, List.reverse_singleton, List.singleton_append,
      List.dropWhile_cons_of_pos (by rfl), List.dropWhile_eq_self_iff]
    intro hpos
    simp only [beq_iff_eq]
    exact fun heq => hname.noBang (List.mem_reverse.mp (heq ▸ List.getElem_mem hpos))
  rw [SideEffect.shortName, lastSegment_within hsegment, afterLast_of_not_mem hsingle, hbefore,
    hdrop, List.reverse_reverse]

/-! ## 3. What a walk reads from -/

namespace Walk

variable {α : Type} {s : Setting} {w : Walk α} {guards sources : List String} {id target : String}

theorem quiet_within {outer x : String} (hx : Plain x) : Quiet (within outer x) :=
  ⟨outer, x, rfl, hx.noColon, hx.noBang⟩

theorem quiet_return (outer : String) : Quiet (within outer "return") := quiet_within (by decide)

/-- The id of a value has no exclamation mark in its last segment. -/
theorem quiet_value {function x : String} (hx : Plain x) (used : List String) (version : Nat) :
    Quiet (fresh used (if version = 1 then within function x
      else within function x ++ "@" ++ toString version)) := by
  obtain ⟨y, hfresh, hy⟩ := exists_value_name function x used version
  exact ⟨function, y, hfresh, hy ':' rfl (by decide) (by decide) hx.noColon,
    hy '!' rfl (by decide) (by decide) hx.noBang⟩

/-- Names stand for quiet ids, all that is noted comes from quiet ids, and elements without one are
effects. No element is marked as a pure side effect. -/
structure Hushed (w : Walk α) : Prop where
  locals : ∀ x id, w.locals.get? x = some id → Quiet id
  relations : ∀ r ∈ w.relations, Quiet r.source
  controls : ∀ c ∈ w.controls, Quiet c.condition
  effects : ∀ e ∈ w.elements, e.kind = .effect ∨ Quiet e.id
  unmarked : ∀ e ∈ w.elements, e.attributes.get? SideEffect.markAttribute = none

namespace Hushed

variable (h : Hushed w)

include h

theorem relate (hid : Quiet id) (kind : EdgeKind) : Hushed (w.relate id target kind) where
  locals := h.locals
  relations r hr := by
    rcases List.mem_cons.mp hr with rfl | hr
    · exact hid
    · exact h.relations r hr
  controls := h.controls
  effects := h.effects
  unmarked := h.unmarked

theorem flow (hsources : ∀ a ∈ sources, Quiet a) : Hushed (w.flow sources target) := by
  unfold Walk.flow
  induction sources generalizing w with
  | nil => exact h
  | cons a sources ih =>
    obtain ⟨ha, hsources⟩ := List.forall_mem_cons.mp hsources
    exact ih (h.relate ha .dataFlow) hsources

theorem guarded (hguards : ∀ a ∈ guards, Quiet a) : Hushed (w.guarded guards target) where
  locals := h.locals
  relations := h.relations
  controls c hc := by
    rcases mem_controls_guarded hc with ⟨a, ha, rfl⟩ | hold
    · exact hguards a ha
    · exact h.controls c hold
  effects := h.effects
  unmarked := h.unmarked

theorem element {kind : ElementKind} (hid : kind = .effect ∨ Quiet id) (line : Nat) :
    Hushed (w.element s id kind line) where
  locals := h.locals
  relations := h.relations
  controls := h.controls
  effects e he := by
    rcases List.mem_cons.mp he with rfl | he
    · exact hid
    · exact h.effects e he
  unmarked e he := by
    rcases List.mem_cons.mp he with rfl | he
    · refine Option.eq_none_iff_forall_ne_some.mpr fun v hv => ?_
      have hmem := Dictionary.mem_of_get?_ofList hv
      simp [SideEffect.markAttribute] at hmem
    · exact h.unmarked e he

theorem versioned (versions : Dictionary Nat) : Hushed { w with versions := versions } := { h with }

/-- A name comes to stand for a quiet id. -/
theorem rename (name : String) (hid : Quiet id) (versions : Dictionary Nat) :
    Hushed { w with locals := w.locals.insert name id, versions := versions } where
  locals x y hy := by
    rcases Dictionary.eq_or_of_get?_insert hy with rfl | hold
    · exact hid
    · exact h.locals x y hold
  relations := h.relations
  controls := h.controls
  effects := h.effects
  unmarked := h.unmarked

/-- **What is read are quiet ids**: what names stand for, and returns. -/
theorem reads (reads : List Read) : ∀ a ∈ (sourcesOf s w.locals reads).all, Quiet a := by
  have hread (r : Read) : ∀ a ∈ (sourcesOfRead s w.locals r).locals ++
      (sourcesOfRead s w.locals r).returns, Quiet a := by
    have hresult (f : Option Signature) : ∀ a ∈ sourcesOfRead.returnOf f, Quiet a := by
      intro a ha
      unfold sourcesOfRead.returnOf at ha
      split at ha
      · split at ha
        · obtain rfl := List.mem_singleton.mp ha
          exact quiet_return _
        · exact absurd ha List.not_mem_nil
      · exact absurd ha List.not_mem_nil
    intro a ha
    cases r with
    | name x =>
      rw [sourcesOfRead, List.append_nil] at ha
      exact h.locals x a (Option.mem_toList.mp ha)
    | captured content =>
      rw [sourcesOfRead, List.append_nil] at ha
      obtain ⟨x, -, hx⟩ := List.mem_filterMap.mp ha
      exact h.locals x a hx
    | call segments => exact hresult _ a ha
    | method name => exact hresult _ a ha
  intro a ha
  rcases List.mem_append.mp ha with ha | ha
  · obtain ⟨found, hfound, ha⟩ := List.mem_flatMap.mp (mem_sortedIds.mp ha)
    obtain ⟨r, -, rfl⟩ := List.mem_map.mp hfound
    exact hread r a (List.mem_append_left _ ha)
  · obtain ⟨found, hfound, ha⟩ := List.mem_flatMap.mp (mem_sortedIds.mp ha)
    obtain ⟨r, -, rfl⟩ := List.mem_map.mp hfound
    exact hread r a (List.mem_append_right _ ha)

theorem calls (hfunction : Quiet s.function) (callee : Signature) (args : List Expr) :
    Hushed (w.calls s callee args) := by
  unfold Walk.calls
  have hrelated : Hushed (w.relate s.function callee.id .call) := h.relate hfunction .call
  generalize w.relate s.function callee.id .call = related at hrelated ⊢
  generalize callee.params.zip args = pairs
  induction pairs generalizing related with
  | nil => exact hrelated
  | cons q pairs ih =>
    obtain ⟨param, arg⟩ := q
    cases param with
    | none => exact ih related hrelated
    | some x => exact ih _ (hrelated.flow (hrelated.reads arg.reads))

end Hushed

/-- **Each construct keeps a walk hushed.** -/
theorem hushed_invariant (hfunction : Quiet s.function) :
    Invariant s Quiet (Hushed : Walk α → Prop) where
  reads h := h.reads
  define {w guards sources} h hguards hsources line name hname := by
    unfold Walk.define
    dsimp only
    have hid : Quiet _ := @quiet_value s.function name hname.1 w.ids
      ((w.versions.get? name).getD 0 + 1)
    generalize fresh w.ids _ = id at hid ⊢
    have hcounted := h.versioned (w.versions.insert name ((w.versions.get? name).getD 0 + 1))
    exact (((hcounted.element (.inr hid) line).flow hsources).guarded hguards).rename name hid _
  effect h hguards hsources line name :=
    ((h.element (.inl rfl) line).flow hsources).guarded hguards
  returns h hguards hsources := by
    unfold Walk.returns
    split
    · exact (h.flow hsources).guarded hguards
    · exact h
  calls h callee args := h.calls hfunction callee args

/-- A walk starts hushed. -/
theorem hushed_enter {f : Signature} (hid : Quiet f.id) (hparams : ∀ x, some x ∈ f.params → Plain x) :
    Hushed (enter s f start : Walk α) := by
  have hstart : Hushed (start : Walk α) := by
    constructor <;> intros <;> contradiction
  have hfold (xs : List String) (hxs : ∀ x ∈ xs, Plain x) {w : Walk α} (h : Hushed w) :
      Hushed (xs.foldl (fun w x =>
        { ((w.element s (within f.id x) .namedValue f.place.line).relate f.id
            (within f.id x) .dataFlow) with
          locals := w.locals.insert x (within f.id x)
          versions := w.versions.insert x 1 }) w) := by
    induction xs generalizing w with
    | nil => exact h
    | cons x xs ih =>
      obtain ⟨hx, hxs⟩ := List.forall_mem_cons.mp hxs
      have hquiet : Quiet (within f.id x) := quiet_within hx
      exact ih hxs (((h.element (.inr hquiet) _).relate hid _).rename x hquiet _)
  have hfunction : Hushed (start.element s f.id .function f.place.line : Walk α) :=
    hstart.element (.inr hid) _
  have hentered := hfold (f.params.filterMap id) (fun x hx => hparams x (by simpa using hx)) hfunction
  unfold enter
  dsimp only
  split
  · exact hentered.element (.inr (quiet_return _)) _
  · exact hentered

end Walk

section Extracted

variable {α : Type} {units : List SourceUnit} {u : SourceUnit} {d : Definition} {f : Signature}
  {w : Walk α}

/-- **All walks read from quiet ids only.** -/
theorem Walked.hushed (hspelled : Spelled units) (h : Walked units u d f w) : w.Hushed := by
  obtain ⟨hname, outer, houter⟩ := h.exists_name hspelled
  have hid : Quiet f.id := houter ▸ Walk.quiet_within hname
  have hparams (x : String) (hx : some x ∈ f.params) : Plain x := (hspelled.params h.found hx).1
  have hbody := (hspelled u h.unit d h.definition).body
  rw [h.walk]
  exact (Walk.hushed_invariant (s := settingOf units u f) hid).keeps_body hbody
    (Walk.hushed_enter hid hparams)

theorem mem_of_mem_firstOfEach {seen : List String} {es : List Element} {e : Element}
    (h : e ∈ firstOfEach seen es) : e ∈ es := by
  induction es generalizing seen with
  | nil => exact h
  | cons a es ih =>
    rw [firstOfEach] at h
    split at h
    · exact List.mem_cons_of_mem a (ih h)
    · rcases List.mem_cons.mp h with rfl | h
      · exact List.mem_cons_self
      · exact List.mem_cons_of_mem a (ih h)

/-- An element is one of some walk. -/
theorem exists_walk_of_mem_merged {ws : List (Walk α)} {e : Element} (h : e ∈ (merged ws).elements) :
    ∃ w ∈ ws, e ∈ w.elements := by
  obtain ⟨w, hw, he⟩ := List.mem_flatMap.mp (mem_of_mem_firstOfEach h)
  exact ⟨w, hw, List.mem_reverse.mp he⟩

section Spelled

variable (hspelled : Spelled units)

include hspelled

theorem hushed_of_mem_walks (hw : w ∈ walks units) : w.Hushed := by
  obtain ⟨u, d, f, h⟩ := mem_walks.mp hw
  exact h.hushed hspelled

/-- **Whatever edge is given comes from a quiet id.** -/
theorem quiet_source_of_given {e : Edge α} (h : (merged (walks units)).Given e) :
    Quiet e.source := by
  cases h with
  | relation hr _ =>
    obtain ⟨w, hw, hr⟩ := (mem_relations_merged hr).1
    exact (hushed_of_mem_walks hspelled hw).relations _ hr
  | control hc =>
    obtain ⟨w, hw, hc⟩ := (mem_controls_merged hc).1
    exact (hushed_of_mem_walks hspelled hw).controls _ hc

/-- What is announced is an effect, and it is not marked as a pure side effect. -/
theorem effect_of_announced {name : String} (hname : ':' ∉ name.toList) {e : Element}
    (he : e ∈ (merged (walks (α := α) units)).elements) (h : Announced name e.id) :
    e.kind = .effect ∧ e.attributes.get? SideEffect.markAttribute = none := by
  obtain ⟨w, hw, hmem⟩ := exists_walk_of_mem_merged he
  have hhushed := hushed_of_mem_walks hspelled hw
  exact ⟨(hhushed.effects e hmem).resolve_right (h.not_quiet hname), hhushed.unmarked e hmem⟩

end Spelled

end Extracted

/-! ## 4. The names that are known -/

/-- Each invocation of such a name leaves one element, an effect that is announced by the name. -/
theorem exists_announced {α : Type} {name : String} (hname : name ∈ effectInvocations) (s : Setting)
    (guards : List String) (args : List Expr) (line : Nat) (w : Walk α) :
    ∃ e, (w.invocationOf s guards name args line).elements = e :: w.elements ∧ e.kind = .effect ∧
      Announced name e.id := by
  rw [Walk.invocationOf, if_pos (List.contains_iff_mem.mpr hname)]
  refine ⟨_, Walk.elements_flow _ _ _, rfl, s.function, line, ?_⟩
  exact fresh_eq _ _

theorem plainName_of_mem : ∀ name ∈ effectInvocations, PlainName name := by decide

/-- **Of the invocations that print or log, the patterns leave out one.** -/
theorem matches_iff_of_mem : ∀ name ∈ effectInvocations,
    (SideEffect.defaultPatterns.any fun p =>
      SideEffect.matchesPattern (Text.lower name.toList) (Text.lower p.toList)) = true ↔
        name ≠ "error" := by
  decide

theorem pureByDefault_iff_of_announced {name : String} (hname : name ∈ effectInvocations)
    {e : Element} (hkind : e.kind = .effect)
    (hmark : e.attributes.get? SideEffect.markAttribute = none) (h : Announced name e.id) :
    ProgramStructure.pureByDefault e = true ↔ name ≠ "error" := by
  rw [← matches_iff_of_mem name hname, ProgramStructure.pureByDefault, SideEffect.isPure, hmark,
    hkind, shortName_of_announced (plainName_of_mem name hname) h]
  rfl

/-- **Of the invocations that print or log, all but `error` leave nothing in the graph.** Each leaves an
effect whose id shows its name, whatever function and line it stands in and however often there. No
edge leads from such an effect. By default it is a pure side effect unless its name is `error`, so it
is pruned and reported; the effects of `error` stay. -/
theorem announced_effects_pruned {α : Type} [Scalar α] {strict : Bool} {files : List SourceFile}
    {p : ProgramStructure α} {g : CausalGraph α} {r : BuildReport}
    (hp : extract strict files = .ok p)
    (hg : build ProgramStructure.pureByDefault p.elements p.relations p.controls = .ok (g, r)) :
    (∀ name ∈ effectInvocations, ∀ s guards args line, ∀ w : Walk α,
      ∃ e, (w.invocationOf s guards name args line).elements = e :: w.elements ∧
        e.kind = .effect ∧ Announced name e.id) ∧
      ∀ e ∈ p.elements, ∀ name ∈ effectInvocations, Announced name e.id →
        e.kind = .effect ∧ (∀ q, p.Given q → q.source ≠ e.id) ∧
        (ProgramStructure.pureByDefault e = true ↔ name ≠ "error") ∧
        (e.id ∈ r.pruned ↔ name ≠ "error") ∧ (e.id ∈ g.ids ↔ name = "error") := by
  refine ⟨fun name hname s guards args line w => exists_announced hname s guards args line w, ?_⟩
  intro e he name hname hannounced
  obtain ⟨units, hread, rfl⟩ := map_eq_ok_iff.mp ((extract_eq strict files).symm.trans hp)
  have hspelled := spelled_of_readFiles hread
  have hcolon := (plainName_of_mem name hname).noColon
  obtain ⟨hkind, hmark⟩ := effect_of_announced hspelled hcolon he hannounced
  have hsink (q : Edge α) (hq : (merged (walks units)).Given q) : q.source ≠ e.id := fun heq =>
    hannounced.not_quiet hcolon (heq ▸ quiet_source_of_given hspelled hq)
  have hpure := pureByDefault_iff_of_announced hname hkind hmark hannounced
  have hremoved :
      e.id ∈ (merged (walks units)).removed ProgramStructure.pureByDefault ↔ name ≠ "error" :=
    (ProgramStructure.mem_removed_iff_of_sink wellGiven_merged he hsink).trans hpure
  obtain ⟨hids, hpruned⟩ := ProgramStructure.mem_ids_of_build hg he
  exact ⟨hkind, hsink, hpure, hpruned.trans hremoved,
    hids.trans ((not_congr hremoved).trans not_not)⟩

/-- A function that logs an error and a warning. -/
def messages : SourceFile where
  package := "m"
  path := "src/m.rs"
  content := "fn f() \x7b error!(\"gone\"); warn!(\"low\"); \x7d"

/-- The function and what it logs, without any relation. -/
def messagesProgram : ProgramStructure Float where
  elements := [.of "m::f" .function [("function", "m::f"), ("file", "src/m.rs"), ("line", "1")],
    .of "m::f::error!@1" .effect [("function", "m::f"), ("file", "src/m.rs"), ("line", "1")],
    .of "m::f::warn!@1" .effect [("function", "m::f"), ("file", "src/m.rs"), ("line", "1")]]
  relations := []
  controls := []

theorem extract_messages : extract true [messages] = .ok messagesProgram := by
  have hfound : ((extract true [messages]).toOption.map fun p : ProgramStructure Float =>
      (p.elements, p.relations.isEmpty, p.controls.isEmpty)) =
      some (messagesProgram.elements, true, true) := by
    decide +kernel
  obtain ⟨⟨elements, relations, controls⟩, hp, hall⟩ := exists_ok_of_toOption hfound
  simp only [Prod.mk.injEq, List.isEmpty_iff] at hall
  obtain ⟨rfl, rfl, rfl⟩ := hall
  exact hp

theorem build_messages : ∃ g r, build ProgramStructure.pureByDefault messagesProgram.elements
      messagesProgram.relations messagesProgram.controls = .ok (g, r) ∧
    g.ids = ["m::f", "m::f::error!@1"] ∧ r.pruned = ["m::f::warn!@1"] := by
  have hbuilt : ((build ProgramStructure.pureByDefault messagesProgram.elements
      messagesProgram.relations messagesProgram.controls).toOption.map
        fun (g, r) => (g.ids, r.pruned)) =
      some (["m::f", "m::f::error!@1"], ["m::f::warn!@1"]) := by
    decide +kernel
  obtain ⟨⟨g, r⟩, hg, hall⟩ := exists_ok_of_toOption hbuilt
  simp only [Prod.mk.injEq] at hall
  exact ⟨g, r, hg, hall⟩

theorem announced_messages :
    Announced "error" "m::f::error!@1" ∧ Announced "warn" "m::f::warn!@1" :=
  ⟨⟨"m::f", 1, .inl (by decide)⟩, ⟨"m::f", 1, .inl (by decide)⟩⟩

/-- The warning is pruned. -/
theorem announced_effects_pruned_messages : ∃ g r, extract true [messages] = .ok messagesProgram ∧
    build ProgramStructure.pureByDefault messagesProgram.elements messagesProgram.relations
      messagesProgram.controls = .ok (g, r) ∧
    "m::f::warn!@1" ∈ r.pruned ∧ "m::f::warn!@1" ∉ g.ids := by
  obtain ⟨g, r, hg, -, -⟩ := build_messages
  have hannounced := announced_messages.2
  obtain ⟨-, hclassified⟩ := announced_effects_pruned extract_messages hg
  have hmem : Element.of "m::f::warn!@1" .effect
      [("function", "m::f"), ("file", "src/m.rs"), ("line", "1")] ∈ messagesProgram.elements := by
    decide
  obtain ⟨-, -, -, hpruned, hkept⟩ := hclassified _ hmem "warn" (by decide) hannounced
  exact ⟨g, r, extract_messages, hg, hpruned.mpr (by decide), fun h => absurd (hkept.mp h) (by decide)⟩

/-- **An error that is logged stays in the graph.** It is the effect of an invocation that the walk
knows, but its name is none of the patterns. -/
theorem logged_error_stays : "error" ∈ effectInvocations ∧ Announced "error" "m::f::error!@1" ∧
    ∃ g r, extract true [messages] = .ok messagesProgram ∧
      build ProgramStructure.pureByDefault messagesProgram.elements messagesProgram.relations
        messagesProgram.controls = .ok (g, r) ∧
      "m::f::error!@1" ∈ g.ids ∧ "m::f::error!@1" ∉ r.pruned ∧ "m::f::warn!@1" ∈ r.pruned := by
  obtain ⟨g, r, hg, hids, hpruned⟩ := build_messages
  refine ⟨by decide, announced_messages.1, g, r, extract_messages, hg, ?_, ?_, ?_⟩
  · rw [hids]
    decide
  · rw [hpruned]
    decide
  · rw [hpruned]
    decide

end Source

end CodeCausality
