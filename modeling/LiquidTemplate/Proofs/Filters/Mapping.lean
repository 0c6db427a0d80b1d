import LiquidTemplate.Filter

/-!
# Parts of all elements

The filter `map` goes through the elements of a value at any depth, from the first to the last. It
prepares each object before it reads a part of it. So what is found in an element depends on the objects
that stand before it, and on how often it stands there itself.

* `Value.IsElement`: what is neither a list nor missing, as everything is that `Value.flatten` gives.
* `History.prepareAll`: the history after the objects of a list were prepared.
* `mapField_eq`: each part is read when the objects up to it have been prepared, and no others.
* `mapField_append`: a list is gone through part by part.
* `mapping`: the filter `map`, and that no other filter prepares an object.
-/

namespace LiquidTemplate

/-! ### Elements -/

namespace Value

variable {v : Value} {vs : List Value}

/-- **Element**: neither a list nor missing. -/
def IsElement (v : Value) : Prop :=
  v.isMissing = false ∧ ∀ items, v ≠ list items

theorem IsElement.flatten (h : v.IsElement) : v.flatten = [v] := by
  cases v with
  | undefined | none => exact absurd h.1 Bool.noConfusion
  | list items => exact absurd rfl (h.2 items)
  | bool _ | int _ | float _ | str _ | map _ | object _ => rfl

mutual

/-- **Flattening leaves elements only.** -/
theorem isElement_of_mem_flatten (v : Value) : ∀ w ∈ v.flatten, w.IsElement := by
  cases v with
  | undefined | none => exact List.forall_mem_nil _
  | list items => exact isElement_of_mem_flattenAll items
  | bool _ | int _ | float _ | str _ | map _ | object _ =>
    exact List.forall_mem_singleton.2 ⟨rfl, fun _ => Value.noConfusion⟩

theorem isElement_of_mem_flattenAll (vs : List Value) : ∀ w ∈ flattenAll vs, w.IsElement := by
  cases vs with
  | nil => exact List.forall_mem_nil _
  | cons v vs =>
    exact List.forall_mem_append.2 ⟨isElement_of_mem_flatten v, isElement_of_mem_flattenAll vs⟩

end

theorem flattenAll_of_isElement (h : ∀ v ∈ vs, v.IsElement) : flattenAll vs = vs := by
  induction vs with
  | nil => rfl
  | cons v vs ih =>
    obtain ⟨hv, hvs⟩ := List.forall_mem_cons.1 h
    rw [flattenAll, hv.flatten, ih hvs, List.singleton_append]

/-- **Flattening again** changes nothing. -/
theorem flatten_list_flatten (v : Value) : (list v.flatten).flatten = v.flatten :=
  flattenAll_of_isElement (isElement_of_mem_flatten v)

theorem flatten_list_append (vs ws : List Value) :
    (list (vs ++ ws)).flatten = (list vs).flatten ++ (list ws).flatten := by
  simp only [flatten, flattenAll_eq_flatMap, List.flatMap_append]

/-- The number of an object. -/
def objectId? : Value → Option Nat
  | object id => some id
  | _ => Option.none

end Value

/-! ### Histories -/

/-- **The history after the objects of a list were prepared**, one after the other. -/
def History.prepareAll (history : History) (vs : List Value) : History :=
  (vs.filterMap Value.objectId?).reverse ++ history

section Histories

variable {host : Host} {name : String} {history : History} {v : Value}

theorem History.prepareAll_cons (history : History) (v : Value) (vs : List Value) :
    history.prepareAll (v :: vs) = (history.prepare v).prepareAll vs := by
  cases v with
  | object id =>
    simp [prepareAll, prepare, Value.objectId?]
  | undefined | none | bool _ | int _ | float _ | str _ | list _ | map _ => rfl

/-- **Each object is prepared as often as it occurs.** -/
theorem History.count_prepareAll (history : History) (vs : List Value) (id : Nat) :
    (history.prepareAll vs).count id =
      history.count id + vs.countP fun v => v.objectId? == some id := by
  rw [prepareAll, List.count_append, List.count_reverse, List.count_filterMap, Nat.add_comm]

/-- **What is in the elements** of a list. Each is read when the objects up to it, and it itself, have
been prepared. -/
def findings (host : Host) (name : String) (history : History) (vs : List Value) : List Value :=
  vs.mapIdx fun i v => v.field (host (history.prepareAll (vs.take (i + 1)))) name

theorem findings_cons (v : Value) (vs : List Value) :
    findings host name history (v :: vs) =
      v.field (host (history.prepare v)) name :: findings host name (history.prepare v) vs := by
  simp only [findings, List.mapIdx_cons, List.take_succ_cons, List.take_zero,
    History.prepareAll_cons]
  rfl

/-- **A run through elements** finds what is in them at their time, and prepares their objects. -/
theorem mapField_eq (host : Host) (name : String) (history : History) (vs : List Value) :
    mapField host name history vs =
      ((findings host name history vs).filter fun v => !v.isMissing, history.prepareAll vs) := by
  induction vs generalizing history with
  | nil => rfl
  | cons v vs ih =>
    rw [mapField, ih, findings_cons, History.prepareAll_cons]
    cases hfound : (v.field (host (history.prepare v)) name).isMissing with
    | true => simp [hfound]
    | false => simp [hfound]

/-- **A run goes on** with the history of its first part. -/
theorem mapField_append (host : Host) (name : String) (history : History) (vs ws : List Value) :
    mapField host name history (vs ++ ws) =
      let (found, between) := mapField host name history vs
      let (more, last) := mapField host name between ws
      (found ++ more, last) := by
  induction vs generalizing history with
  | nil => rfl
  | cons v vs ih =>
    rw [List.cons_append, mapField, ih, mapField]
    dsimp only
    split
    · rfl
    · rfl

end Histories

/-! ### The filter -/

/-- **The parts of all elements.** Nesting and missing elements make no difference to `map`, and a list
is gone through part by part. Nothing that is found is missing. Each object is prepared as often as it
occurs, in order, and it is read after this and before the next one is prepared. No other filter
prepares an object. -/
theorem mapping (host : Host) :
    (∀ (name : String) (args : FilterArguments),
      (∀ history, args.text? (host history) 0 "property" = some name) →
      let run (history : History) (value : Value) := Filter.map.run host history value args
      ∀ history : History,
        (∀ value : Value, run history value = run history (.list value.flatten) ∧
          ∀ v ∈ value.flatten, v.IsElement) ∧
        (∀ vs ws : List Value, ∃ found more between last,
          run history (.list vs) = (.ok (.list found), between) ∧
          run between (.list ws) = (.ok (.list more), last) ∧
          run history (.list (vs ++ ws)) = (.ok (.list (found ++ more)), last)) ∧
        ∀ value : Value, ∃ found,
          run history value = (.ok (.list found), history.prepareAll value.flatten) ∧
          found = (findings host name history value.flatten).filter (fun v => !v.isMissing) ∧
          (∀ v ∈ found, v.isMissing = false) ∧
          ∀ id, (history.prepareAll value.flatten).count id =
            history.count id + value.flatten.countP fun v => v.objectId? == some id) ∧
    ∀ f : Filter, f ≠ .map → ∀ (history : History) (value : Value) (args : FilterArguments),
      (f.run host history value args).2 = history := by
  constructor
  · intro name args hname run history
    have hrun (history : History) (value : Value) : run history value = _ :=
      Filter.run_map (hname history) value
    refine ⟨fun value => ⟨?_, Value.isElement_of_mem_flatten value⟩, fun vs ws => ?_, fun value => ?_⟩
    · rw [hrun, hrun, Value.flatten_list_flatten]
    · refine ⟨_, _, _, _, hrun _ _, hrun _ _, ?_⟩
      rw [hrun, Value.flatten_list_append, mapField_append]
    · refine ⟨_, ?_, rfl, fun v hv => ?_, History.count_prepareAll history value.flatten⟩
      · rw [hrun, mapField_eq]
      · simpa using (List.mem_filter.1 hv).2
  · intro f hf history value args
    rw [Filter.run_of_ne_map hf]

/-- An object that stands twice in a list, once in a list within it, and counts how often it was
prepared. -/
theorem mapping_twice :
    let host : Host := fun history =>
      ⟨fun _ _ => none, fun id _ => some (.ofNat (history.count id)), fun _ => ""⟩
    let args : FilterArguments := { positional := [.str "prepared"] }
    let value : Value := .list [.object 0, .list [.undefined, .object 1, .list [.object 0]], .int 7]
    (∀ history, args.text? (host history) 0 "property" = some "prepared") ∧
      Filter.map.run host [] value args = (.ok (.list [.int 1, .int 1, .int 2]), [0, 1, 0]) ∧
      value.flatten.countP (fun v => v.objectId? == some 0) = 2 := by
  intro host args value
  have hname (history : History) : args.text? (host history) 0 "property" = some "prepared" := rfl
  obtain ⟨found, hrun, hfound, -, hcount⟩ := ((mapping host).1 "prepared" args hname []).2.2 value
  have hparts : found = [.int 1, .int 1, .int 2] := hfound.trans rfl
  refine ⟨hname, ?_, ?_⟩
  · rw [← hparts]
    exact hrun
  · have hprepared : (History.prepareAll [] value.flatten).count 0 = 2 := rfl
    rw [hcount] at hprepared
    simpa using hprepared

end LiquidTemplate
