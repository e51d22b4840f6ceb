import CodeCausality.Record.Text
import CodeCausality.Proofs.Json.Value
import CodeCausality.Proofs.Model.Grounded
import CodeCausality.Proofs.Record.Reload

/-!
# Records are read back from their texts

The text of a record is read as its value with the numbers reread, so what is left is to read the
parts of the record from that value. A float that is not finite is written as `null`, which no
reader of a float takes; only where a weight may be missing would it pass for none, and the weights
of a model's graph are finite.

* `parse?_ofFloat`, `isFinite_of_reread` -- what is read of a float's value, and that it is refused
  unless the float is finite;
* `edge?_edgeJson`, `mechanism?_mechanismJson`, `metadata?_metadataJson`, `read?_toJson` -- each
  part is read back but for its numbers, which are read one by one;
* `ofText?_toText`, `isFinite_of_ofText?` -- what this comes to for a whole record;
* `records_of_models_read_back` -- **the record of a model is read back from its text if all its
  floats are finite, and its text is refused if one is not**.
-/

namespace CodeCausality

open Json

/-! ## 1. Floats -/

namespace Json

theorem within_ofFloat (depth : Nat) (x : Float) : Within depth (ofFloat x) := by
  unfold ofFloat
  split
  · dsimp only
    split <;> exact .number _
  · exact .null

/-- What is read of the text of a float. -/
theorem parse?_ofFloat (x : Float) :
    parse? (pretty (ofFloat x)) >>= asFloat? = asFloat? (reread (ofFloat x)) := by
  rw [parse?_pretty (within_ofFloat _ x)]
  rfl

/-- A float that is not finite is written as no number. -/
theorem isFinite_of_reread {x y : Float} (h : asFloat? (reread (ofFloat x)) = some y) :
    x.isFinite = true := by
  rw [Binary64.isFinite_iff_view]
  unfold ofFloat at h
  split at h
  · rename_i s m e hview
    exact ⟨s, m, e, hview⟩
  · rw [reread_null] at h
    exact nomatch h

end Json

/-! ## 2. Lists and dictionaries -/

namespace Record

section Parts

variable {β γ : Type} {f : Json → Option γ} {g : β → Json}

theorem asList?_reread (f : Json → Option γ) (g : β → Json) (xs : List β) :
    asList? f (reread (.array (xs.map g))) = xs.mapM fun x => f (reread (g x)) := by
  rw [reread_array, asList?, List.map_map, List.mapM_map]
  rfl

theorem asList?_reread_of_forall {f : Json → Option β} {xs : List β}
    (h : ∀ x ∈ xs, f (reread (g x)) = some x) :
    asList? f (reread (.array (xs.map g))) = some xs := by
  rw [asList?_reread, mapM_eq_some_iff, List.forall₂_same]
  exact h

theorem exists_of_asList? {xs : List β} {ys : List γ}
    (h : asList? f (reread (.array (xs.map g))) = some ys) {x : β} (hx : x ∈ xs) :
    ∃ y, f (reread (g x)) = some y := by
  rw [asList?_reread, mapM_eq_some_iff] at h
  obtain ⟨y, -, hy⟩ := exists_of_mem_forall₂ h.flip hx
  exact ⟨y, hy⟩

theorem asDictionary?_reread (f : Json → Option γ) (g : β → Json) (d : Dictionary β) :
    asDictionary? f (reread (dictionaryJson g d)) =
      (d.entries.mapM fun e => (f (reread (g e.2))).map fun v => (e.1, v)).map
        Dictionary.ofList := by
  rw [dictionaryJson, reread_object, asDictionary?, List.map_map, List.mapM_map]
  rfl

theorem asDictionary?_reread_of_forall {f : Json → Option β} {d : Dictionary β}
    (h : ∀ v ∈ d.values, f (reread (g v)) = some v) :
    asDictionary? f (reread (dictionaryJson g d)) = some d := by
  have hentries : (d.entries.mapM fun e => (f (reread (g e.2))).map fun v => (e.1, v)) =
      some d.entries := by
    rw [mapM_eq_some_iff, List.forall₂_same]
    intro e he
    rw [h e.2 (List.mem_map_of_mem he)]
    rfl
  rw [asDictionary?_reread, hentries, Option.map_some, Dictionary.ofList_entries]

theorem exists_of_asDictionary? {d : Dictionary β} {d' : Dictionary γ}
    (h : asDictionary? f (reread (dictionaryJson g d)) = some d') {v : β} (hv : v ∈ d.values) :
    ∃ w, f (reread (g v)) = some w := by
  obtain ⟨e, he, rfl⟩ := List.mem_map.mp hv
  rw [asDictionary?_reread] at h
  obtain ⟨es, hes, -⟩ := Option.map_eq_some_iff.mp h
  obtain ⟨_, -, hread⟩ := exists_of_mem_forall₂ (mapM_eq_some_iff.mp hes).flip he
  obtain ⟨w, hw, -⟩ := Option.map_eq_some_iff.mp hread
  exact ⟨w, hw⟩

end Parts

theorem asString?_reread (s : String) : asString? (reread (.text s)) = some s := by
  rw [reread_text]
  rfl

theorem asTag?_reread (s : String) : asTag? (reread (.text s)) = some s := by
  rw [reread_text]
  rfl

theorem strings_reread (xs : List String) : asList? asString? (reread (ofStrings xs)) = some xs :=
  asList?_reread_of_forall fun s _ => asString?_reread s

theorem texts_reread (d : Dictionary String) :
    asDictionary? asString? (reread (dictionaryJson .text d)) = some d :=
  asDictionary?_reread_of_forall fun s _ => asString?_reread s

theorem asWord64?_reread (n : UInt64) : asWord64? (reread (ofNat n.toNat)) = some n := by
  have hword : JsonNumber.toWord? ⟨⟨false, n.toNat, 0⟩, true⟩ = some n.toNat := by
    rw [JsonNumber.toWord?, if_pos]
    simpa using n.toNat_lt
  rw [reread_ofNat, asWord64?, ofNat, asWord?, hword, Option.map_some, UInt64.ofNat_toNat]

/-! ## 3. The parts of a record -/

theorem node?_nodeJson (n : Element) : GraphParts.node? (reread (nodeJson n)) = some n := by
  have hfields : fields? [⟨"id", .required⟩, ⟨"kind", .required⟩, ⟨"attributes", .defaulted⟩]
      (reread (nodeJson n)) = some [some (reread (.text n.id)), some (reread (.text n.kind.name)),
        some (reread (dictionaryJson .text n.attributes))] := by
    rw [nodeJson, reread_object]
    rfl
  rw [GraphParts.node?, hfields]
  simp only [Option.bind_eq_bind, Option.bind_some, requiredField?, defaultedField?,
    GraphParts.attributes?, asString?_reread, asTag?_reread, texts_reread,
    ElementKind.ofName?_name, Option.pure_def]

variable (number : Json → Option Float)

/-- An edge is read but for its weight. -/
theorem edge?_edgeJson (e : Edge Float) :
    edge? number (reread (edgeJson e)) = do
      let weight ← asOption? number (reread (ofOption ofFloat e.weight))
      return ⟨e.source, e.target, e.kind, weight⟩ := by
  have hfields : fields? [⟨"source", .required⟩, ⟨"target", .required⟩, ⟨"edge_type", .required⟩,
      ⟨"weight", .nullable⟩] (reread (edgeJson e)) = some [some (reread (.text e.source)),
        some (reread (.text e.target)), some (reread (.text e.kind.name)),
        some (reread (ofOption ofFloat e.weight))] := by
    rw [edgeJson, reread_object]
    rfl
  rw [edge?, hfields]
  simp only [Option.bind_eq_bind, Option.bind_some, requiredField?, optionalField?,
    asString?_reread, asTag?_reread, EdgeKind.ofName?_name]

/-- A mechanism is read but for its parameters. -/
theorem mechanism?_mechanismJson (m : MechanismRecord Float) :
    mechanism? number (reread (mechanismJson m)) = do
      let parameters ← asDictionary? (asList? number)
        (reread (dictionaryJson (fun xs => .array (xs.map ofFloat)) m.parameters))
      return ⟨m.family, m.domain, m.parents, m.labels, parameters⟩ := by
  have hfields : fields? [⟨"mechanism_type", .required⟩, ⟨"domain", .required⟩,
      ⟨"parents", .required⟩, ⟨"labels", .defaulted⟩, ⟨"parameters", .required⟩]
      (reread (mechanismJson m)) = some [some (reread (.text m.family)),
        some (reread (.text m.domain)), some (reread (ofStrings m.parents)),
        some (reread (ofStrings m.labels)),
        some (reread (dictionaryJson (fun xs => .array (xs.map ofFloat)) m.parameters))] := by
    rw [mechanismJson, reread_object]
    rfl
  rw [mechanism?, hfields]
  simp only [Option.bind_eq_bind, Option.bind_some, requiredField?, defaultedField?,
    asString?_reread, strings_reread]

/-- The facts about a model are read but for its scores. -/
theorem metadata?_metadataJson (m : MetadataRecord Float) :
    metadata? number (reread (metadataJson m)) = do
      let score ← number (reread (ofFloat m.score))
      let nodeScores ← asDictionary? number (reread (dictionaryJson ofFloat m.nodeScores))
      return ⟨m.fittedAt, m.traceCount, score, m.staticOnly, m.families, nodeScores, m.seed⟩ := by
  have hfields : fields? [⟨"fitted_at", .required⟩, ⟨"trace_count", .required⟩,
      ⟨"validation_r2", .required⟩, ⟨"static_only", .required⟩, ⟨"mechanism_types", .required⟩,
      ⟨"node_scores", .defaulted⟩, ⟨"seed", .required⟩] (reread (metadataJson m)) =
      some [some (reread (.text m.fittedAt)), some (reread (ofNat m.traceCount.toNat)),
        some (reread (ofFloat m.score)), some (reread (.bool m.staticOnly)),
        some (reread (dictionaryJson .text m.families)),
        some (reread (dictionaryJson ofFloat m.nodeScores)), some (reread (ofNat m.seed.toNat))] := by
    rw [metadataJson, reread_object]
    rfl
  have hbool : asBool? (reread (.bool m.staticOnly)) = some m.staticOnly := by
    rw [reread_bool]
    rfl
  rw [metadata?, hfields]
  simp only [Option.bind_eq_bind, Option.bind_some, requiredField?, defaultedField?,
    asString?_reread, asWord64?_reread, hbool, texts_reread]

/-- A record is read but for its edges, its mechanisms and its facts. -/
theorem read?_toJson (r : Record Float) :
    read? number (reread r.toJson) = do
      let edges ← asList? (edge? number) (reread (.array (r.edges.map edgeJson)))
      let mechanisms ← asDictionary? (mechanism? number)
        (reread (dictionaryJson mechanismJson r.mechanisms))
      let metadata ← metadata? number (reread (metadataJson r.metadata))
      return ⟨r.nodes, edges, mechanisms, metadata⟩ := by
  have hfields : fields? [⟨"nodes", .required⟩, ⟨"edges", .required⟩, ⟨"mechanisms", .required⟩,
      ⟨"metadata", .required⟩] (reread r.toJson) =
      some [some (reread (.array (r.nodes.map nodeJson))),
        some (reread (.array (r.edges.map edgeJson))),
        some (reread (dictionaryJson mechanismJson r.mechanisms)),
        some (reread (metadataJson r.metadata))] := by
    rw [toJson, reread_object]
    rfl
  have hnodes : asList? GraphParts.node? (reread (.array (r.nodes.map nodeJson))) = some r.nodes :=
    asList?_reread_of_forall fun n _ => node?_nodeJson n
  rw [read?, hfields]
  simp only [Option.bind_eq_bind, Option.bind_some, requiredField?, hnodes]

/-! ## 4. Nesting -/

section Nesting

variable {depth : Nat}

theorem within_strings (xs : List String) : Within (depth + 1) (ofStrings xs) :=
  .array fun x hx => by
    obtain ⟨s, -, rfl⟩ := List.mem_map.mp hx
    exact .text s

theorem within_dictionaryJson {β : Type} {f : β → Json} (h : ∀ v, Within depth (f v))
    (d : Dictionary β) : Within (depth + 1) (dictionaryJson f d) :=
  .object fun m hm => by
    obtain ⟨e, -, rfl⟩ := List.mem_map.mp hm
    exact h e.2

theorem within_list {β : Type} {f : β → Json} (h : ∀ v, Within depth (f v)) (xs : List β) :
    Within (depth + 1) (.array (xs.map f)) :=
  .array fun x hx => by
    obtain ⟨v, -, rfl⟩ := List.mem_map.mp hx
    exact h v

theorem within_nodeJson (n : Element) : Within (depth + 2) (nodeJson n) :=
  .object (by
    simp only [List.forall_mem_cons]
    exact ⟨.text _, .text _, within_dictionaryJson .text _, fun _ h => nomatch h⟩)

theorem within_edgeJson (e : Edge Float) : Within (depth + 1) (edgeJson e) :=
  .object (by
    have hweight : Within depth (ofOption ofFloat e.weight) := by
      cases e.weight with
      | none => exact .null
      | some w => exact within_ofFloat depth w
    simp only [List.forall_mem_cons]
    exact ⟨.text _, .text _, .text _, hweight, fun _ h => nomatch h⟩)

theorem within_mechanismJson (m : MechanismRecord Float) : Within (depth + 3) (mechanismJson m) :=
  .object (by
    have hparameters := within_dictionaryJson (within_list (within_ofFloat depth)) m.parameters
    simp only [List.forall_mem_cons]
    exact ⟨.text _, .text _, within_strings _, within_strings _, hparameters,
      fun _ h => nomatch h⟩)

theorem within_metadataJson (m : MetadataRecord Float) : Within (depth + 2) (metadataJson m) :=
  .object (by
    simp only [List.forall_mem_cons]
    exact ⟨.text _, .number _, within_ofFloat _ _, .bool _, within_dictionaryJson .text _,
      within_dictionaryJson (within_ofFloat depth) _, .number _, fun _ h => nomatch h⟩)

/-- A record nests five levels deep. -/
theorem within_toJson (r : Record Float) : Within (depth + 5) r.toJson :=
  .object (by
    simp only [List.forall_mem_cons]
    exact ⟨within_list within_nodeJson _, within_list within_edgeJson _,
      within_dictionaryJson within_mechanismJson _, within_metadataJson _, fun _ h => nomatch h⟩)

end Nesting

/-! ## 5. Records -/

/-- The floats of a mechanism. -/
def mechanismNumbers {α : Type} (m : MechanismRecord α) : List α :=
  m.parameters.values.flatten

/-- The floats of a record: weights, parameters and scores. -/
def numbers {α : Type} (r : Record α) : List α :=
  r.edges.filterMap (·.weight) ++ (r.mechanisms.values.flatMap mechanismNumbers ++
    r.metadata.score :: r.metadata.nodeScores.values)

variable {r : Record Float}

/-- The text of a record is read as its value with the numbers reread. -/
theorem ofText?_toText_eq (r : Record Float) :
    ofText? r.toText = read? asFloat? (reread r.toJson) := by
  have hwithin : Within (122 + 5) r.toJson := within_toJson r
  have hparse : parse? r.toText = some (reread r.toJson) := parse?_pretty hwithin
  rw [ofText?, hparse]
  rfl

theorem asOption?_of_asFloat? {j : Json} {x : Float} (h : asFloat? j = some x) :
    asOption? asFloat? j = some (some x) := by
  cases j with
  | number n => exact congrArg (Option.map some) h
  | _ => exact nomatch h

theorem edge?_of_reread {e : Edge Float}
    (h : ∀ w, e.weight = some w → asFloat? (reread (ofFloat w)) = some w) :
    edge? asFloat? (reread (edgeJson e)) = some e := by
  have hweight : asOption? asFloat? (reread (ofOption ofFloat e.weight)) = some e.weight := by
    cases hw : e.weight with
    | none =>
      rw [ofOption, reread_null]
      rfl
    | some w => exact asOption?_of_asFloat? (h w hw)
  rw [edge?_edgeJson, hweight]
  rfl

theorem mechanism?_of_reread {m : MechanismRecord Float}
    (h : ∀ x ∈ mechanismNumbers m, asFloat? (reread (ofFloat x)) = some x) :
    mechanism? asFloat? (reread (mechanismJson m)) = some m := by
  rw [mechanism?_mechanismJson, asDictionary?_reread_of_forall]
  · rfl
  · exact fun xs hxs => asList?_reread_of_forall fun x hx =>
      h x (List.mem_flatten.mpr ⟨xs, hxs, hx⟩)

/-- **A record whose floats are read back is read back.** -/
theorem ofText?_toText (h : ∀ x ∈ r.numbers, asFloat? (reread (ofFloat x)) = some x) :
    ofText? r.toText = some r := by
  simp only [numbers, List.forall_mem_append, List.forall_mem_cons] at h
  obtain ⟨hweights, hparameters, hscore, hscores⟩ := h
  have hedges : asList? (edge? asFloat?) (reread (.array (r.edges.map edgeJson))) =
      some r.edges :=
    asList?_reread_of_forall fun e he => edge?_of_reread fun w hw =>
      hweights w (List.mem_filterMap.mpr ⟨e, he, hw⟩)
  have hmechanisms : asDictionary? (mechanism? asFloat?)
      (reread (dictionaryJson mechanismJson r.mechanisms)) = some r.mechanisms :=
    asDictionary?_reread_of_forall fun m hm => mechanism?_of_reread fun x hx =>
      hparameters x (List.mem_flatMap.mpr ⟨m, hm, hx⟩)
  have hmetadata : metadata? asFloat? (reread (metadataJson r.metadata)) = some r.metadata := by
    rw [metadata?_metadataJson, hscore, asDictionary?_reread_of_forall hscores]
    rfl
  rw [ofText?_toText_eq, read?_toJson, hedges, hmechanisms, hmetadata]
  rfl

theorem isFinite_of_mechanism? {m m' : MechanismRecord Float}
    (h : mechanism? asFloat? (reread (mechanismJson m)) = some m') :
    ∀ x ∈ mechanismNumbers m, x.isFinite = true := by
  intro x hx
  obtain ⟨xs, hxs, hx⟩ := List.mem_flatten.mp hx
  rw [mechanism?_mechanismJson] at h
  obtain ⟨parameters, hparameters, -⟩ := Option.bind_eq_some_iff.mp h
  obtain ⟨ys, hys⟩ := exists_of_asDictionary? hparameters hxs
  obtain ⟨y, hy⟩ := exists_of_asList? hys hx
  exact isFinite_of_reread hy

/-- **If the text of a record is read as any record, its floats are finite**, if its weights are. -/
theorem isFinite_of_ofText? {r' : Record Float} (h : ofText? r.toText = some r')
    (hweights : ∀ e ∈ r.edges, ∀ w, e.weight = some w → w.isFinite = true) :
    ∀ x ∈ r.numbers, x.isFinite = true := by
  rw [ofText?_toText_eq, read?_toJson] at h
  obtain ⟨_, -, h⟩ := Option.bind_eq_some_iff.mp h
  obtain ⟨mechanisms, hmechanisms, h⟩ := Option.bind_eq_some_iff.mp h
  obtain ⟨metadata, hmetadata, -⟩ := Option.bind_eq_some_iff.mp h
  rw [metadata?_metadataJson] at hmetadata
  obtain ⟨score, hscore, hmetadata⟩ := Option.bind_eq_some_iff.mp hmetadata
  obtain ⟨scores, hscores, -⟩ := Option.bind_eq_some_iff.mp hmetadata
  simp only [numbers, List.forall_mem_append, List.forall_mem_cons]
  refine ⟨fun w hw => ?_, fun x hx => ?_, isFinite_of_reread hscore, fun x hx => ?_⟩
  · obtain ⟨e, he, hw⟩ := List.mem_filterMap.mp hw
    exact hweights e he w hw
  · obtain ⟨m, hm, hx⟩ := List.mem_flatMap.mp hx
    obtain ⟨m', hm'⟩ := exists_of_asDictionary? hmechanisms hm
    exact isFinite_of_mechanism? hm' x hx
  · obtain ⟨y, hy⟩ := exists_of_asDictionary? hscores hx
    exact isFinite_of_reread hy

/-- **The record of a model that was fitted or loaded is read back from its text if all its floats
are finite, and its text is refused if one is not**; so the text is never read as another record.
A finite float of the record is taken to be read back from its own text. -/
theorem records_of_models_read_back {ρ : Type} [Noise ρ Float] {m : Model Float}
    (hm : m.Produced ρ)
    (hfloat : ∀ x ∈ (ofModel m).numbers, x.isFinite = true →
      parse? (pretty (ofFloat x)) >>= asFloat? = some x) :
    ((∀ x ∈ (ofModel m).numbers, x.isFinite = true) →
      ofText? (ofModel m).toText = some (ofModel m)) ∧
    ((∃ x ∈ (ofModel m).numbers, x.isFinite = false) → ofText? (ofModel m).toText = none) ∧
    ∀ r, ofText? (ofModel m).toText = some r → r = ofModel m := by
  have hweights : ∀ e ∈ (ofModel m).edges, ∀ w, e.weight = some w → w.isFinite = true :=
    hm.grounded.graph.finiteWeights
  have hback (hfinite : ∀ x ∈ (ofModel m).numbers, x.isFinite = true) :
      ofText? (ofModel m).toText = some (ofModel m) :=
    ofText?_toText fun x hx => (parse?_ofFloat x).symm.trans (hfloat x hx (hfinite x hx))
  refine ⟨hback, ?_, fun r hr => ?_⟩
  · rintro ⟨x, hx, hinfinite⟩
    rw [Option.eq_none_iff_forall_ne_some]
    intro r hr
    rw [isFinite_of_ofText? hr hweights x hx] at hinfinite
    exact nomatch hinfinite
  · have hread := hback (isFinite_of_ofText? hr hweights)
    exact Option.some.inj (hr.symm.trans hread)

/-- A record of one node with the given score, and its model. -/
def scored (score : Float) : Record Float :=
  { lateRecord Float with metadata := { (lateRecord Float).metadata with score } }

def scoredModel (score : Float) : Model Float :=
  { lateModel Float with metadata := { (lateModel Float).metadata with score } }

theorem toModel_scored (score : Float) : (scored score).toModel = .ok (scoredModel score) := by
  cbv

theorem numbers_scored (score : Float) : (ofModel (scoredModel score)).numbers = [score] := rfl

/-- Of two loaded models one is read back; the other's score is written as `null` and refused. -/
theorem handwritten_read_back_unscored_refused :
    ofText? (ofModel (handwrittenModel Float)).toText = some (ofModel (handwrittenModel Float)) ∧
      ofText? (ofModel (scoredModel (0 / 0))).toText = none := by
  constructor
  · exact (records_of_models_read_back (ρ := Random.Generator) (.loaded (toModel_handwritten Float))
      (by decide +kernel)).1 (by decide +kernel)
  · have hnan : (0 / 0 : Float).isFinite = false := by decide +kernel
    refine (records_of_models_read_back (ρ := Random.Generator)
      (.loaded (toModel_scored (0 / 0))) ?_).2.1 ⟨0 / 0, ?_, hnan⟩
    · rw [numbers_scored, List.forall_mem_singleton, hnan]
      exact fun h => nomatch h
    · rw [numbers_scored]
      exact List.mem_singleton_self _

end Record

end CodeCausality
