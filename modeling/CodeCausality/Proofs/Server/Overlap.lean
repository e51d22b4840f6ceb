import Mathlib.Data.List.Induction
import CodeCausality.Proofs.Record.Bytes
import CodeCausality.Proofs.Record.Reload
import CodeCausality.Proofs.Server.Requests
import CodeCausality.Server.Overlap

/-!
# What overlapping requests leave behind

A request to load first keeps its record in the store and then puts it among the loaded models. If
two requests for one name keep in one order and load in the other, the store holds the record of one
and the server that of the other.

* `run_alone` -- three turns in a row are one request answered;
* `Moves`, `moves_turn` -- what a turn can do: keep one record, load one, or change nothing shared;
* `keeps`, `loads` -- the records that turns keep and load, in order; what each move preserves of
  them holds after any turns (`run_induction`);
* `record?_run`, `stored_run` -- **of each name the last one loaded is loaded, and the last one kept
  is stored**;
* `Agrees`, `agrees_turn` -- loaded and stored agree but for a record that was kept and is not loaded
  yet: **no turn breaks this where never two requests are that far at once**;
* `apart_of_single` -- two requests are never that far at once for a name that only one is for;
* `overlapping_loads` -- all of this, for every list of requests and every order of their turns;
* `crossed_loads_disagree` -- two requests after which loaded and stored differ.
-/

namespace CodeCausality

namespace Server

open Binary.Format (Fits float)
open ServerState (Files KeptIn)

/-! ## 1. Turns -/

namespace Threads

section Turns

variable {σ : Type} [RecordStore σ] {c : Threads σ} {t : Turn} {name : String}

theorem run_concat (c : Threads σ) (turns : List Turn) (t : Turn) :
    c.run (turns ++ [t]) = (c.run turns).turn t := by
  rw [run, List.foldl_append]
  rfl

theorem turn_of_getElem? {p : Progress} (hp : c.requests[t.request]? = some p) :
    c.turn t = ⟨(p.advance t.files c.state).2,
      c.requests.set t.request (p.advance t.files c.state).1⟩ := by
  rw [turn, hp]

/-- What stands among the requests once one of them has moved on. -/
theorem getElem?_set_request {ps : List Progress} {i : Nat} {p : Progress} (hp : ps[i]? = some p)
    (q : Progress) (j : Nat) : (ps.set i q)[j]? = if i = j then some q else ps[j]? := by
  obtain ⟨hlt, -⟩ := List.getElem?_eq_some_iff.mp hp
  rw [List.getElem?_set]
  split <;> rfl

/-- **Three turns in a row are one request answered**: with the reply of the server, and the state
after it. -/
theorem run_alone (files : Files) {i : Nat} {source : RecordSource}
    (hi : c.requests[i]? = some (.waiting name source)) :
    c.run [⟨i, files⟩, ⟨i, files⟩, ⟨i, files⟩] =
      ⟨(c.state.answerRequest files (.loadModel name source)).2,
        c.requests.set i (.answered (c.state.answerRequest files (.loadModel name source)).1)⟩ := by
  have hfirst : c.turn ⟨i, files⟩ = _ := turn_of_getElem? hi
  -- the same request takes the next turn
  have hnext (q : Progress) (s : ServerState σ) :
      (⟨s, c.requests.set i q⟩ : Threads σ).turn ⟨i, files⟩ =
        ⟨(q.advance files s).2, c.requests.set i (q.advance files s).1⟩ := by
    have hq : (c.requests.set i q)[i]? = some q := by rw [getElem?_set_request hi, if_pos rfl]
    have hturn : (⟨s, c.requests.set i q⟩ : Threads σ).turn ⟨i, files⟩ = _ := turn_of_getElem? hq
    rw [hturn, List.set_set]
  show ((c.turn ⟨i, files⟩).turn ⟨i, files⟩).turn ⟨i, files⟩ = _
  rw [hfirst, hnext, hnext, ServerState.answerRequest]
  dsimp only [Progress.advance]
  cases c.state.recordOf files name source with
  | error f => rfl
  | ok r =>
    dsimp only
    rcases c.state.keep name r with ⟨f | _, s⟩ <;> rfl

/-- The record that a turn keeps: that of a request which has found it, if the store takes it. -/
def keeps? (c : Threads σ) (t : Turn) : Option (String × Record Float) :=
  match c.requests[t.request]? with
  | some (.found name r) => (c.state.keep name r).1.toOption.map fun _ => (name, r)
  | _ => none

/-- The record that a turn loads: that of a request which has kept it. -/
def loads? (c : Threads σ) (t : Turn) : Option (String × Record Float) :=
  match c.requests[t.request]? with
  | some (.kept name r) => some (name, r)
  | _ => none

/-- What a turn can do, with the record it keeps, the record it loads, and the server after it. -/
inductive Moves (c : Threads σ) (t : Turn) : Option (String × Record Float) →
    Option (String × Record Float) → Threads σ → Prop
  | idle : Moves c t none none c
  | quiet {p p' : Progress} (hp : c.requests[t.request]? = some p)
      (hbefore : ∀ name r, p ≠ .kept name r) (hafter : ∀ name r, p' ≠ .kept name r) :
      Moves c t none none ⟨c.state, c.requests.set t.request p'⟩
  | keep {name : String} {r : Record Float} {store : Option σ}
      (hp : c.requests[t.request]? = some (.found name r))
      (hstore : KeptIn name r c.state.store store) :
      Moves c t (some (name, r)) none
        ⟨{ c.state with store }, c.requests.set t.request (.kept name r)⟩
  | load {name : String} {r : Record Float} {reply : Except Failure Reply}
      (hp : c.requests[t.request]? = some (.kept name r)) :
      Moves c t none (some (name, r))
        ⟨c.state.load name r, c.requests.set t.request (.answered reply)⟩

/-- **A turn does one of these.** -/
theorem moves_turn [RecordStore.Lawful σ] (c : Threads σ) (t : Turn) :
    Moves c t (c.keeps? t) (c.loads? t) (c.turn t) := by
  cases hp : c.requests[t.request]? with
  | none =>
    rw [keeps?, loads?, turn, hp]
    exact .idle
  | some p =>
    rw [turn_of_getElem? hp, keeps?, loads?, hp]
    cases p with
    | waiting name source =>
      rw [Progress.advance]
      cases c.state.recordOf t.files name source with
      | error f => exact .quiet hp nofun nofun
      | ok r => exact .quiet hp nofun nofun
    | found name r =>
      rw [Progress.advance]
      dsimp only
      rcases c.state.keep_cases name r with ⟨f, hkeep⟩ | ⟨store, hstore, hkeep⟩
      · rw [hkeep]
        exact .quiet hp nofun nofun
      · rw [hkeep]
        exact .keep hp hstore
    | kept name r => exact .load hp
    | answered reply => exact .quiet hp nofun nofun

end Turns

/-! ## 2. The last of each name -/

section Last

variable {σ : Type} [RecordStore σ] {c : Threads σ}

/-- What turns give, one after another. -/
def collect {β : Type} (f : Threads σ → Turn → Option β) (c : Threads σ) : List Turn → List β
  | [] => []
  | t :: rest => (f c t).toList ++ collect f (c.turn t) rest

/-- The records that the turns keep, in order. -/
abbrev keeps (c : Threads σ) : List Turn → List (String × Record Float) := collect keeps? c

/-- The records that the turns load, in order. -/
abbrev loads (c : Threads σ) : List Turn → List (String × Record Float) := collect loads? c

theorem collect_concat {β : Type} (f : Threads σ → Turn → Option β) (c : Threads σ)
    (turns : List Turn) (t : Turn) :
    collect f c (turns ++ [t]) = collect f c turns ++ (f (c.run turns) t).toList := by
  induction turns generalizing c with
  | nil => exact List.append_nil _
  | cons t' rest ih =>
    show (f c t').toList ++ collect f (c.turn t') (rest ++ [t]) = _
    rw [ih, ← List.append_assoc]
    rfl

omit [RecordStore σ] in
theorem record?_load (s : ServerState σ) (name : String) (r : Record Float) (other : String) :
    (s.load name r).record? other = if name = other then some r else s.record? other := by
  rw [ServerState.record?, ServerState.load]
  dsimp only
  rw [Dictionary.get?_insert]
  split <;> rfl

/-- What the store holds after records were kept one after another, the last of each name, and what
it held before under a name that none was kept under. -/
def StoresLast (kept : List (String × Record Float)) (t t' : σ) : Prop :=
  ∀ name, (∀ r, kept.reverse.lookup name = some r → Fits (Record.format float) r →
      RecordStore.get t' name = .ok (some r)) ∧
    (kept.reverse.lookup name = none → RecordStore.get t' name = RecordStore.get t name)

theorem StoresLast.keep {kept : List (String × Record Float)} {t₀ t t' : σ} {name : String}
    {r : Record Float} (h : StoresLast kept t₀ t)
    (hsame : Fits (Record.format float) r → RecordStore.get t' name = .ok (some r))
    (hothers : ∀ other, other ≠ name → RecordStore.get t' other = RecordStore.get t other) :
    StoresLast (kept ++ [(name, r)]) t₀ t' := by
  intro other
  rw [List.reverse_append, List.reverse_singleton, List.singleton_append, List.lookup_cons]
  by_cases hname : other = name
  · subst hname
    rw [beq_self_eq_true]
    refine ⟨fun r' hr' hfits => ?_, nofun⟩
    obtain rfl := Option.some.inj hr'
    exact hsame hfits
  · rw [beq_false_of_ne hname, hothers other hname]
    exact h other

variable [RecordStore.Lawful σ]

/-- What holds at first, and stays with each move of the records kept and loaded so far, holds after
any turns of the records that they keep and load. -/
theorem run_induction {P : List (String × Record Float) → List (String × Record Float) →
      Threads σ → Prop} (hstart : P [] [] c)
    (hmove : ∀ {kept loaded c t kept? loaded? c'}, P kept loaded c → Moves c t kept? loaded? c' →
      P (kept ++ kept?.toList) (loaded ++ loaded?.toList) c')
    (turns : List Turn) : P (c.keeps turns) (c.loads turns) (c.run turns) := by
  induction turns using List.reverseRecOn with
  | nil => exact hstart
  | append_singleton turns t ih =>
    rw [run_concat, keeps, loads, collect_concat, collect_concat]
    exact hmove ih (moves_turn (c.run turns) t)

/-- **The record that is loaded under a name is the last one loaded**, if none was loaded at first. -/
theorem record?_run {name : String} (hc : c.state.record? name = none) (turns : List Turn) :
    (c.run turns).state.record? name = (c.loads turns).reverse.lookup name := by
  refine run_induction (P := fun _ loaded c' => c'.state.record? name = loaded.reverse.lookup name)
    hc (fun {kept loaded c t kept? loaded? c'} h hmove => ?_) turns
  cases hmove with
  | idle | quiet | keep =>
    rw [Option.toList_none, List.append_nil]
    exact h
  | @load name' r =>
    rw [Option.toList_some, List.reverse_append, List.reverse_singleton, List.singleton_append,
      List.lookup_cons, record?_load]
    by_cases hname : name = name'
    · rw [if_pos hname.symm, beq_iff_eq.mpr hname]
    · rw [if_neg (Ne.symm hname), beq_false_of_ne hname]
      exact h

/-- **The record that is stored under a name is the last one kept.** -/
theorem stored_run {t₀ : σ} (hc : c.state.store = some t₀) (turns : List Turn) :
    ∃ t', (c.run turns).state.store = some t' ∧ StoresLast (c.keeps turns) t₀ t' := by
  refine run_induction
    (P := fun kept _ c' => ∃ t', c'.state.store = some t' ∧ StoresLast kept t₀ t')
    ⟨t₀, hc, fun name => ⟨nofun, fun _ => rfl⟩⟩ (fun {kept loaded c t kept? loaded? c'} h hmove => ?_)
    turns
  obtain ⟨t', ht', hlast⟩ := h
  cases hmove with
  | idle | quiet | load =>
    rw [Option.toList_none, List.append_nil]
    exact ⟨t', ht', hlast⟩
  | keep hp hstore =>
    rw [ht'] at hstore
    cases hstore with
    | some hsame hothers => exact ⟨_, rfl, hlast.keep hsame hothers⟩

end Last

/-! ## 3. Requests between their turns -/

section Agree

variable {σ : Type} [RecordStore σ] {c : Threads σ} {t : Turn} {name : String}

/-- The request has kept a record under the name and is yet to load it. -/
def Between (c : Threads σ) (name : String) (i : Nat) (r : Record Float) : Prop :=
  c.requests[i]? = some (.kept name r)

/-- No two requests for the name are between keeping and loading. -/
def Apart (c : Threads σ) (name : String) : Prop :=
  ∀ i j r r', c.Between name i r → c.Between name j r' → i = j

/-- The record is stored under the name. -/
def Stores (c : Threads σ) (name : String) (r : Record Float) : Prop :=
  ∃ t, c.state.store = some t ∧ RecordStore.get t name = .ok (some r)

/-- A record that was kept under the name and is not loaded yet is stored, and if there is none, what
is loaded is stored. -/
structure Agrees (c : Threads σ) (name : String) : Prop where
  between : ∀ i r, c.Between name i r → Fits (Record.format float) r → c.Stores name r
  settled : (∀ i r, ¬ c.Between name i r) → ∀ r, c.state.record? name = some r →
    Fits (Record.format float) r → c.Stores name r

omit [RecordStore σ] in
/-- A request that moves on to keeping under the name is between, and so is whatever else was. -/
theorem between_set_iff {s : ServerState σ} {ps : List Progress} {i j : Nat} {p q : Progress}
    {r : Record Float} (hp : ps[i]? = some p) :
    (⟨s, ps.set i q⟩ : Threads σ).Between name j r ↔
      if i = j then q = .kept name r else ps[j]? = some (.kept name r) := by
  rw [Between, getElem?_set_request hp]
  split
  · exact Option.some_inj
  · exact Iff.rfl

omit [RecordStore σ] in
/-- A request that has nothing to do with the name leaves all others where they were. -/
theorem between_set_of_ne {s : ServerState σ} {i j : Nat} {p q : Progress} {r : Record Float}
    (hp : c.requests[i]? = some p) (hbefore : ∀ r, p ≠ .kept name r)
    (hafter : ∀ r, q ≠ .kept name r) :
    (⟨s, c.requests.set i q⟩ : Threads σ).Between name j r ↔ c.Between name j r := by
  rw [between_set_iff hp]
  split
  · rename_i hij
    subst hij
    refine iff_of_false (hafter r) fun hi => hbefore r ?_
    exact Option.some.inj (hp.symm.trans hi)
  · exact Iff.rfl

/-- Agreement under the name is left by a request that has nothing to do with it, if what is loaded
and stored under it stays. -/
theorem Agrees.of_ne (h : c.Agrees name) {s : ServerState σ} {i : Nat} {p q : Progress}
    (hp : c.requests[i]? = some p) (hbefore : ∀ r, p ≠ .kept name r)
    (hafter : ∀ r, q ≠ .kept name r) (hrecord : s.record? name = c.state.record? name)
    (hstores : ∀ r, c.Stores name r → Stores ⟨s, c.requests.set i q⟩ name r) :
    Agrees ⟨s, c.requests.set i q⟩ name where
  between j r hj hfits :=
    hstores r (h.between j r ((between_set_of_ne hp hbefore hafter).mp hj) hfits)
  settled hnone r hr hfits :=
    hstores r (h.settled (fun j r' hj => hnone j r' ((between_set_of_ne hp hbefore hafter).mpr hj))
      r (hrecord.symm.trans hr) hfits)

/-- **A turn keeps loaded and stored in agreement**, if no two requests for the name are between
keeping and loading, before it and after it. -/
theorem agrees_turn [RecordStore.Lawful σ] (h : c.Agrees name)
    (hstore : ∃ t, c.state.store = some t) (hbefore : c.Apart name)
    (hafter : (c.turn t).Apart name) : (c.turn t).Agrees name := by
  obtain ⟨t₀, ht₀⟩ := hstore
  have hmoves := moves_turn c t
  generalize c.keeps? t = kept?, c.loads? t = loaded?, c.turn t = c' at hmoves hafter ⊢
  cases hmoves with
  | idle => exact h
  | quiet hp hquiet hquiet' =>
    exact h.of_ne hp (hquiet name) (hquiet' name) rfl fun r hr => hr
  | @keep name' r store hp hkept =>
    rw [ht₀] at hkept
    cases hkept with
    | @some _ t' hsame hothers =>
      by_cases hname : name' = name
      · -- the record that was just kept is the only one that is not loaded yet
        subst hname
        have hmine : Between ⟨{ c.state with store := some t' },
            c.requests.set t.request (.kept name' r)⟩ name' t.request r :=
          (between_set_iff hp).mpr (by rw [if_pos rfl])
        refine ⟨fun j r' hj hfits => ?_, fun hnone => absurd hmine (hnone _ _)⟩
        obtain rfl := hafter _ _ _ _ hmine hj
        obtain rfl : r = r' := by
          have hkept := Option.some.inj (hmine.symm.trans hj)
          injection hkept
        exact ⟨t', rfl, hsame hfits⟩
      · refine h.of_ne hp nofun (fun r' hr' => hname (by injection hr')) rfl fun r' hr' => ?_
        obtain ⟨t₁, ht₁, hget⟩ := hr'
        obtain rfl := Option.some.inj (ht₀.symm.trans ht₁)
        exact ⟨t', rfl, (hothers name (Ne.symm hname)).trans hget⟩
  | @load name' r reply hp =>
    by_cases hname : name' = name
    · -- the record that was just loaded was kept, and no other is between
      subst hname
      refine ⟨fun j r' hj => ?_, fun _ r' hr' hfits => ?_⟩
      · rw [between_set_iff hp] at hj
        split at hj
        · exact nomatch hj
        · rename_i hne
          exact absurd (hbefore _ _ _ _ hp hj) hne
      · obtain rfl : r = r' := by
          rw [record?_load, if_pos rfl] at hr'
          exact Option.some.inj hr'
        exact h.between _ r hp hfits
    · refine h.of_ne hp (fun r' hr' => hname (by injection hr')) nofun ?_ fun r' hr' => hr'
      rw [record?_load, if_neg hname]

/-- **Turns keep loaded and stored in agreement**, if at no time two requests for the name are between
keeping and loading. -/
theorem agrees_run [RecordStore.Lawful σ] (h : c.Agrees name)
    (hstore : ∃ t, c.state.store = some t) (turns : List Turn)
    (hapart : ∀ before, before <+: turns → (c.run before).Apart name) :
    (c.run turns).Agrees name := by
  induction turns using List.reverseRecOn with
  | nil => exact h
  | append_singleton turns t ih =>
    have hprefix : turns <+: turns ++ [t] := List.prefix_append _ _
    have hagrees := ih fun before hbefore => hapart before (hbefore.trans hprefix)
    obtain ⟨t₀, ht₀⟩ := hstore
    obtain ⟨t', ht', -⟩ := stored_run ht₀ turns
    have hafter := hapart _ (List.prefix_refl (turns ++ [t]))
    rw [run_concat] at hafter ⊢
    exact agrees_turn hagrees ⟨t', ht'⟩ (hapart turns hprefix) hafter

end Agree

end Threads

/-! ## 4. Names that one request loads -/

/-- The name under which a request is to load, until it is answered. -/
def Progress.name? : Progress → Option String
  | waiting name _ | found name _ | kept name _ => some name
  | answered _ => none

namespace Threads

section Names

variable {σ : Type} [RecordStore σ] {settings : SimulationSettings Float} {store : Option σ}
  {requests : List (String × RecordSource)} {name : String}

/-- A request never takes another name. -/
theorem name?_advance (files : Files) (s : ServerState σ) (p : Progress) :
    (p.advance files s).1.name? = some name → p.name? = some name := by
  cases p with
  | waiting name' source =>
    rw [Progress.advance]
    cases s.recordOf files name' source with
    | error f => exact nofun
    | ok r => exact id
  | found name' r =>
    rw [Progress.advance]
    rcases s.keep name' r with ⟨f | _, s'⟩
    · exact nofun
    · exact id
  | kept name' r => exact nofun
  | answered reply => exact id

theorem name?_turn {c : Threads σ} {t : Turn} {i : Nat} {p : Progress}
    (hp : (c.turn t).requests[i]? = some p) (hname : p.name? = some name) :
    ∃ q, c.requests[i]? = some q ∧ q.name? = some name := by
  cases ht : c.requests[t.request]? with
  | none =>
    rw [turn, ht] at hp
    exact ⟨p, hp, hname⟩
  | some q =>
    rw [turn_of_getElem? ht] at hp
    dsimp only at hp
    rw [getElem?_set_request ht] at hp
    split at hp
    · rename_i hi
      subst hi
      obtain rfl := Option.some.inj hp
      exact ⟨q, ht, name?_advance t.files c.state q hname⟩
    · exact ⟨p, hp, hname⟩

/-- A request that is not answered is one of those that were sent, for the same name. -/
theorem sent_of_name? {turns : List Turn} {i : Nat} {p : Progress}
    (hp : ((start (.start settings store) requests).run turns).requests[i]? = some p)
    (hname : p.name? = some name) : ∃ source, requests[i]? = some (name, source) := by
  induction turns using List.reverseRecOn generalizing p with
  | nil =>
    have hp : (requests.map fun q => Progress.waiting q.1 q.2)[i]? = some p := hp
    rw [List.getElem?_map, Option.map_eq_some_iff] at hp
    obtain ⟨⟨name', source⟩, hi, rfl⟩ := hp
    obtain rfl := Option.some.inj hname
    exact ⟨source, hi⟩
  | append_singleton turns t ih =>
    rw [run_concat] at hp
    obtain ⟨q, hq, hqname⟩ := name?_turn hp hname
    exact ih hq hqname

/-- No two of the requests are for the name. -/
def Single (requests : List (String × RecordSource)) (name : String) : Prop :=
  ∀ (i j : Nat) (source source' : RecordSource), requests[i]? = some (name, source) →
    requests[j]? = some (name, source') → i = j

theorem apart_of_single (h : Single requests name) (turns : List Turn) :
    ((start (.start settings store) requests).run turns).Apart name := by
  intro i j r r' hi hj
  obtain ⟨source, hsource⟩ := sent_of_name? hi rfl
  obtain ⟨source', hsource'⟩ := sent_of_name? hj rfl
  exact h i j source source' hsource hsource'

end Names

/-! ## 5. Every order of the turns -/

section Overlapping

variable {σ : Type} [RecordStore σ]

/-- At no time during the turns are two requests for the name between keeping and loading. -/
def KeptApart (c : Threads σ) (turns : List Turn) (name : String) : Prop :=
  ∀ before, before <+: turns → (c.run before).Apart name

theorem agrees_start (s : ServerState σ) (requests : List (String × RecordSource)) (name : String)
    (h : s.record? name = none) : (start s requests).Agrees name where
  between i r hi := by
    have hi : (requests.map fun q => Progress.waiting q.1 q.2)[i]? = some (.kept name r) := hi
    rw [List.getElem?_map, Option.map_eq_some_iff] at hi
    obtain ⟨_, -, hwaiting⟩ := hi
    exact nomatch hwaiting
  settled _ r hr _ := absurd (h.symm.trans hr) nofun

/-- **Whatever requests to load overlap, and in whatever order they take their turns**, of each name
the record that is loaded is the last one loaded and the record that is stored is the last one kept.
They are the same once no request for the name is between keeping and loading, if no two ever were at
the same time; so they are if no two of the requests are for the name. -/
theorem overlapping_loads [RecordStore.Lawful σ] (settings : SimulationSettings Float) (t : σ)
    (requests : List (String × RecordSource)) (turns : List Turn) :
    let c := start (.start settings (some t)) requests
    ∃ t', (c.run turns).state.store = some t' ∧
      (∀ name, (c.run turns).state.record? name = (c.loads turns).reverse.lookup name) ∧
      StoresLast (c.keeps turns) t t' ∧
      ∀ name, c.KeptApart turns name ∨ Single requests name →
        (∀ i r, ¬ (c.run turns).Between name i r) →
        ∀ r, (c.run turns).state.record? name = some r → Fits (Record.format float) r →
          RecordStore.get t' name = .ok (some r) := by
  intro c
  have hempty : ∀ name, c.state.record? name = none := fun name => rfl
  obtain ⟨t', ht', hlast⟩ := stored_run (c := c) rfl turns
  refine ⟨t', ht', fun name => record?_run (hempty name) turns, hlast,
    fun name hname hnone r hr hfits => ?_⟩
  have hapart : c.KeptApart turns name :=
    hname.elim id fun hsingle before _ => apart_of_single hsingle before
  have hagrees := agrees_run (agrees_start _ requests name (hempty name)) ⟨t, rfl⟩ turns hapart
  obtain ⟨t₁, ht₁, hget⟩ := hagrees.settled hnone r hr hfits
  obtain rfl := Option.some.inj (ht'.symm.trans ht₁)
  exact hget

omit [RecordStore σ] in
/-- Two requests are apart if one of them is not between. -/
theorem apart_pair {s : ServerState σ} {p q : Progress} {name : String}
    (h : (∀ r, p ≠ .kept name r) ∨ ∀ r, q ≠ .kept name r) : Apart ⟨s, [p, q]⟩ name := by
  have hne {i : Nat} {r : Record Float} (hi : Between ⟨s, [p, q]⟩ name i r) :
      i = 0 ∧ p = .kept name r ∨ i = 1 ∧ q = .kept name r := by
    match i, hi with
    | 0, hi => exact .inl ⟨rfl, Option.some.inj hi⟩
    | 1, hi => exact .inr ⟨rfl, Option.some.inj hi⟩
  intro i j r r' hi hj
  rcases hne hi, hne hj with ⟨⟨rfl, hp⟩ | ⟨rfl, hq⟩, ⟨rfl, hp'⟩ | ⟨rfl, hq'⟩⟩
  · rfl
  · exact h.elim (fun h => absurd hp (h r)) (fun h => absurd hq' (h r'))
  · exact h.elim (fun h => absurd hp' (h r')) (fun h => absurd hq (h r))
  · rfl

/-- Two requests for one name are under way at once, and the second keeps its record only after the
first has loaded its own. -/
theorem overlapping_loads_taken_in_turn :
    let files : Files := fun _ => .error ""
    let r : Record Float := .withNumbers (0 / 0) (-0.0)
    let c : Threads := start (.start {} (some .empty))
      [("m", .given (lateRecord Float)), ("m", .given r)]
    let after := c.run ([0, 1, 0, 0, 1, 1].map (Turn.mk · files))
    after.state.record? "m" = some r ∧
      ∃ t, after.state.store = some t ∧ RecordStore.get t "m" = .ok (some r) := by
  intro files r c after
  obtain ⟨t, hstore, hloaded, -, hagree⟩ := overlapping_loads (σ := MemoryStore) {} .empty
    [("m", .given (lateRecord Float)), ("m", .given r)]
    ([0, 1, 0, 0, 1, 1].map (Turn.mk · files))
  have hloads : c.loads ([0, 1, 0, 0, 1, 1].map (Turn.mk · files)) =
      [("m", lateRecord Float), ("m", r)] := rfl
  have hrecord : after.state.record? "m" = some r := (hloaded "m").trans (by rw [hloads]; rfl)
  have hapart : c.KeptApart ([0, 1, 0, 0, 1, 1].map (Turn.mk · files)) "m" := by
    intro before hbefore
    have hmem := (List.mem_inits _ _).mpr hbefore
    simp only [List.map_cons, List.map_nil, List.inits, List.mem_cons, List.not_mem_nil,
      or_false] at hmem
    rcases hmem with rfl | rfl | rfl | rfl | rfl | rfl | rfl
    · exact apart_pair (.inl nofun)
    · exact apart_pair (.inl nofun)
    · exact apart_pair (.inl nofun)
    · exact apart_pair (.inr nofun)
    · exact apart_pair (.inl nofun)
    · exact apart_pair (.inl nofun)
    · exact apart_pair (.inl nofun)
  have hrequests : after.requests = [.answered _, .answered _] := rfl
  have hnone : ∀ i q, ¬ after.Between "m" i q := by
    intro i q hi
    have hmem := List.mem_of_getElem? hi
    rw [hrequests] at hmem
    simp only [List.mem_cons, List.not_mem_nil, or_false, reduceCtorEq] at hmem
  exact ⟨hrecord, t, hstore, hagree "m" (.inl hapart) hnone r hrecord Record.fits_withNumbers.2⟩

/-- **Two requests for one name that keep in one order and load in the other** are both answered, and
what is loaded is not what is stored. -/
theorem crossed_loads_disagree :
    let files : Files := fun _ => .error ""
    let c : Threads := start (.start {} (some .empty))
      [("m", .given (lateRecord Float)), ("m", .given (handwritten Float))]
    let after := c.run ([0, 1, 0, 1, 1, 0].map (Turn.mk · files))
    after.requests = [.answered (.ok (.loaded (ServerState.summary "m" (lateRecord Float)))),
      .answered (.ok (.loaded (ServerState.summary "m" (handwritten Float))))] ∧
      after.state.record? "m" = some (lateRecord Float) ∧
      after.state.store.map (RecordStore.get · "m") = some (.ok (some (handwritten Float))) ∧
      lateRecord Float ≠ handwritten Float := by
  refine ⟨rfl, rfl, rfl, fun h => ?_⟩
  exact absurd (congrArg (fun r => r.nodes.length) h) (by decide)

end Overlapping

end Threads

end Server

end CodeCausality
