import Mathlib.Data.List.Nodup
import LiquidTemplate.Tree.Walk

/-!
# Walks are complete

A node has a place in its template: the fields that lead to it, each with an index. The walk goes through
the places of all nodes, through each of them once, and leaves nothing else between a node and the nodes
below it.

* `Expr.fields`, `Stmt.fields`: what the fields of a node hold.
* `nodeAt?`: the node at a place.
* `Contiguous`: what is below a place follows it without a gap.
* `Visits.cons`, `exists_visits_below`: a node with what is below it, and the nodes in its fields.
* `walk_complete`: the walk through a template.
-/

namespace LiquidTemplate

/-! ### Fields of nodes -/

/-- **Field** of a node that holds other nodes. -/
inductive Field where
  | items | keys | values | node | arg | start | stop | step | positional | keywords | spread
  | spreadKeywords | cond | yes | no | left | right | nodes | expr | operands | template | target
  | iter | test | body | otherwise | targets | options | params | defaults | call | filter | value
deriving DecidableEq

/-- The fields of arguments. -/
def Arguments.fields (args : Arguments Expr) : List (Field × List Expr) :=
  [(.positional, args.positional), (.keywords, args.keywords.map Keyword.value),
    (.spread, args.spread.toList), (.spreadKeywords, args.spreadKeywords.toList)]

/-- **Fields of an expression**, with the expressions in them. -/
def Expr.fields : Expr → List (Field × List Expr)
  | const .. | templateData .. | name .. | internalName .. => []
  | tuple items _ _ | list items _ => [(.items, items)]
  | dict entries _ => [(.keys, entries.map Entry.key), (.values, entries.map Entry.value)]
  | member node _ _ | not node _ | neg node _ | pos node _ => [(.node, [node])]
  | item node arg _ => [(.node, [node]), (.arg, [arg])]
  | slice start stop step _ =>
    [(.start, start.toList), (.stop, stop.toList), (.step, step.toList)]
  | call node args _ | test node _ args _ => (.node, [node]) :: args.fields
  | filter node _ args _ => (.node, node.toList) :: args.fields
  | conditional cond yes no _ => [(.cond, [cond]), (.yes, [yes]), (.no, no.toList)]
  | and left right _ | or left right _ | binary _ left right _ =>
    [(.left, [left]), (.right, [right])]
  | concat nodes _ => [(.nodes, nodes)]
  | compare expr operands _ => [(.expr, [expr]), (.operands, operands.map Operand.expr)]

/-- **Fields of a statement**, with the expressions and the statements in them. -/
def Stmt.fields (s : Stmt) : List (Field × List Node) :=
  let exprs (f : Field) (es : List Expr) : Field × List Node := (f, es.map .expr)
  let stmts (f : Field) (ss : List Stmt) : Field × List Node := (f, ss.map .stmt)
  match s with
  | output nodes _ => [exprs .nodes nodes]
  | extendsTemplate template _ | includeTemplate template _ _ _ | sectionTemplate template _ _ _
  | importTemplate template _ _ _ | importNames template _ _ _ => [exprs .template [template]]
  | forLoop target iter body otherwise test _ _ =>
    [exprs .target [target], exprs .iter [iter], exprs .test test.toList, stmts .body body,
      stmts .otherwise otherwise]
  | ifThen test body otherwise _ =>
    [exprs .test [test], stmts .body body, stmts .otherwise otherwise]
  | breakLoop _ | continueLoop _ => []
  | withBlock targets values body _ =>
    [exprs .targets targets, exprs .values values, stmts .body body]
  | scope body _ | block _ _ body _ => [stmts .body body]
  | optionBlock options body _ => [exprs .options (options.map Keyword.value), stmts .body body]
  | macroBlock _ params defaults body _ =>
    [exprs .params params, exprs .defaults defaults, stmts .body body]
  | callBlock call params defaults body _ =>
    [exprs .call [call], exprs .params params, exprs .defaults defaults, stmts .body body]
  | filterBlock filter body _ => [exprs .filter [filter], stmts .body body]
  | assign target value _ => [exprs .target [target], exprs .value [value]]
  | assignBlock target body _ => [exprs .target [target], stmts .body body]
  | .expr node _ => [exprs .node [node]]

namespace Expr

/-- The keys and the values of a dictionary are walked through in turns. -/
theorem entries_perm (entries : List (Entry Expr)) :
    (entries.map Entry.key ++ entries.map Entry.value).Perm
      (entries.flatMap fun e => [e.key, e.value]) := by
  induction entries with
  | nil => exact .nil
  | cons e es ih =>
    rw [List.map_cons, List.map_cons, List.flatMap_cons, List.cons_append, List.cons_append]
    exact (List.perm_middle.trans (ih.cons _)).cons _

theorem children_perm (e : Expr) :
    (e.fields.flatMap Prod.snd).Perm e.children := by
  cases e with
  | dict entries =>
    simpa [Expr.fields, Expr.children] using entries_perm entries
  | _ => simp [Expr.fields, Expr.children, Arguments.fields, Arguments.values]

end Expr

namespace Node

/-- **Fields of a node**, with the nodes in them. -/
def fields : Node → List (Field × List Node)
  | expr e => e.fields.map fun f => (f.1, f.2.map expr)
  | stmt s => s.fields

/-- The nodes directly below a node, as they are walked through. -/
def children : Node → List Node
  | expr e => e.children.map expr
  | stmt s => s.exprs.map expr ++ s.body.map stmt

/-- **Walk** through a node. -/
def walk : Node → List Node
  | expr e => e.walk.map expr
  | stmt s => s.walk

theorem walk_eq (n : Node) : n.walk = n :: n.children.flatMap walk := by
  cases n with
  | expr e =>
    rw [walk, Expr.walk_eq, children, List.map_cons, List.map_flatMap, List.flatMap_map]
    rfl
  | stmt s =>
    rw [walk, Stmt.walk_eq, children, List.flatMap_append, List.flatMap_map, List.flatMap_map,
      List.map_flatMap]
    rfl

theorem mem_walk_self (n : Node) : n ∈ n.walk := by
  rw [walk_eq]
  exact List.mem_cons_self

theorem fields_nodup (n : Node) : (n.fields.map Prod.fst).Nodup := by
  cases n with
  | expr e => cases e <;> simp [fields, Expr.fields, Arguments.fields]
  | stmt s => cases s <;> simp [fields, Stmt.fields]

/-- **The fields of a node** hold what is walked through below it. -/
theorem children_perm (n : Node) : (n.fields.flatMap Prod.snd).Perm n.children := by
  cases n with
  | expr e =>
    have hmap : (expr e).fields.flatMap Prod.snd = (e.fields.flatMap Prod.snd).map expr := by
      rw [fields, List.flatMap_map, List.map_flatMap]
    rw [hmap]
    exact e.children_perm.map _
  | stmt s => cases s <;> simp [fields, Stmt.fields, children, Stmt.exprs, Stmt.body]

/-- **Induction over nodes**: what holds of a node if it holds of those directly below it. -/
theorem induction_children {motive : Node → Prop}
    (h : ∀ n : Node, (∀ c ∈ n.children, motive c) → motive n) (n : Node) : motive n := by
  have hexpr (e : Expr) : motive (expr e) := by
    induction hsize : sizeOf e using Nat.strongRecOn generalizing e with
    | ind size ih =>
      refine h _ fun c hc => ?_
      obtain ⟨x, hx, rfl⟩ := List.mem_map.1 hc
      exact ih _ (hsize ▸ Expr.sizeOf_lt_of_mem_children hx) x rfl
  have hstmt (s : Stmt) : motive (stmt s) := by
    induction hsize : sizeOf s using Nat.strongRecOn generalizing s with
    | ind size ih =>
      refine h _ fun c hc => ?_
      rcases List.mem_append.1 hc with hc | hc <;> obtain ⟨x, hx, rfl⟩ := List.mem_map.1 hc
      · exact hexpr x
      · exact ih _ (hsize ▸ Stmt.sizeOf_lt_of_mem_body hx) x rfl
  cases n with
  | expr e => exact hexpr e
  | stmt s => exact hstmt s

end Node

/-! ### Places -/

/-- **Place** of a node: the fields that lead to it, each with an index. -/
abbrev NodePlace := List (Field × Nat)

/-- The node in a field with an index. -/
def childAt? (fields : List (Field × List Node)) (slot : Field × Nat) : Option Node :=
  (fields.lookup slot.1).bind fun nodes => nodes[slot.2]?

/-- The node at a place below a node. -/
def Node.at? (n : Node) : NodePlace → Option Node
  | [] => some n
  | slot :: place => (childAt? n.fields slot).bind fun c => c.at? place

/-- The node at a place in some fields. -/
def placeIn? (fields : List (Field × List Node)) : NodePlace → Option Node
  | [] => none
  | slot :: place => (childAt? fields slot).bind fun c => c.at? place

/-- **The node at a place** of a template. -/
def nodeAt? (body : List Stmt) : NodePlace → Option Node :=
  placeIn? [(.body, body.map .stmt)]

/-- **Without a gap.** The places below a place stand right behind it. -/
def Contiguous (places : List NodePlace) : Prop :=
  ∀ p ∈ places, ∃ before below after, places = before ++ p :: below ++ after ∧
    (∀ q ∈ below, p <+: q) ∧ ∀ q ∈ before ++ after, ¬ p <+: q

section Contiguous

variable {places others : List NodePlace}

theorem Contiguous.nil : Contiguous [] :=
  fun _ h => nomatch h

/-- The places of a node, and those below it. -/
theorem Contiguous.root (h : Contiguous places) (hbelow : ∀ p ∈ places, p ≠ []) :
    Contiguous ([] :: places) := by
  intro p hp
  rcases List.mem_cons.1 hp with rfl | hp
  · exact ⟨[], places, [], by rw [List.append_nil, List.nil_append], fun _ _ => List.nil_prefix, nofun⟩
  · obtain ⟨before, below, after, hplaces, hin, hout⟩ := h p hp
    refine ⟨[] :: before, below, after, by rw [hplaces]; rfl, hin, fun q hq => ?_⟩
    rcases List.mem_cons.1 hq with rfl | hq
    · exact fun hnil => hbelow p hp (List.prefix_nil.1 hnil)
    · exact hout q hq

/-- The places in one field. -/
theorem Contiguous.map_cons (h : Contiguous places) (slot : Field × Nat) :
    Contiguous (places.map (slot :: ·)) := by
  intro p hp
  obtain ⟨inner, hinner, rfl⟩ := List.mem_map.1 hp
  obtain ⟨before, below, after, rfl, hin, hout⟩ := h inner hinner
  refine ⟨before.map (slot :: ·), below.map (slot :: ·), after.map (slot :: ·), by simp,
    fun q hq => ?_, fun q hq => ?_⟩
  · obtain ⟨r, hr, rfl⟩ := List.mem_map.1 hq
    exact (List.prefix_cons_inj _).2 (hin r hr)
  · rw [← List.map_append] at hq
    obtain ⟨r, hr, rfl⟩ := List.mem_map.1 hq
    exact fun hpre => hout r hr ((List.prefix_cons_inj _).1 hpre)

/-- The places in one field after another. -/
theorem Contiguous.append (h : Contiguous places) (hothers : Contiguous others)
    (hapart : ∀ p ∈ places, ∀ q ∈ others, ¬ p <+: q ∧ ¬ q <+: p) : Contiguous (places ++ others) := by
  intro p hp
  rcases List.mem_append.1 hp with hp | hp
  · obtain ⟨before, below, after, hplaces, hin, hout⟩ := h p hp
    refine ⟨before, below, after ++ others, by rw [hplaces]; simp, hin, fun q hq => ?_⟩
    rw [← List.append_assoc, List.mem_append] at hq
    exact hq.elim (hout q) fun hq => (hapart p hp q hq).1
  · obtain ⟨before, below, after, hplaces, hin, hout⟩ := hothers p hp
    refine ⟨places ++ before, below, after, by rw [hplaces]; simp, hin, fun q hq => ?_⟩
    rw [List.append_assoc, List.mem_append] at hq
    exact hq.elim (fun hq => (hapart q hq p hp).2) (hout q)

end Contiguous

/-! ### The slots of a node -/

section Slots

variable {fields : List (Field × List Node)} {f g : Field} {nodes : List Node}

theorem childAt?_cons_self (i : Nat) : childAt? ((f, nodes) :: fields) (f, i) = nodes[i]? := by
  rw [childAt?, List.lookup_cons_self, Option.bind_some]

theorem childAt?_cons_of_ne (h : g ≠ f) (i : Nat) :
    childAt? ((f, nodes) :: fields) (g, i) = childAt? fields (g, i) := by
  have hne : (g == f) = false := beq_eq_false_iff_ne.2 h
  simp only [childAt?, List.lookup_cons, hne]

theorem childAt?_eq_none (h : f ∉ fields.map Prod.fst) (i : Nat) : childAt? fields (f, i) = none := by
  have hnone : fields.lookup f = none := List.lookup_eq_none_iff.2 fun field hfield =>
    bne_iff_ne.2 fun heq => h (heq ▸ List.mem_map_of_mem hfield)
  rw [childAt?, hnone, Option.bind_none]

/-- **Slots of fields**, in the order of the fields. -/
theorem exists_slots (h : (fields.map Prod.fst).Nodup) :
    ∃ slots : List (Field × Nat), slots.Nodup ∧
      (∀ slot, slot ∈ slots ↔ (childAt? fields slot).isSome = true) ∧
      slots.map (childAt? fields) = (fields.flatMap Prod.snd).map some := by
  induction fields with
  | nil => exact ⟨[], List.nodup_nil, fun _ => by simp [childAt?], rfl⟩
  | cons field fields ih =>
    obtain ⟨f, nodes⟩ := field
    obtain ⟨hnew, hrest⟩ := List.nodup_cons.1 h
    obtain ⟨slots, hnodup, hmem, hmap⟩ := ih hrest
    have hother : ∀ slot ∈ slots, slot.1 ≠ f := by
      rintro ⟨g, i⟩ hslot rfl
      have hsome := (hmem _).1 hslot
      rw [childAt?_eq_none hnew] at hsome
      nomatch hsome
    refine ⟨(List.range nodes.length).map (f, ·) ++ slots, ?_, ?_, ?_⟩
    · refine List.nodup_append.2 ⟨List.nodup_range.map fun _ _ h => (Prod.mk.inj h).2, hnodup, ?_⟩
      rintro _ hown slot hslot rfl
      obtain ⟨i, -, rfl⟩ := List.mem_map.1 hown
      exact hother _ hslot rfl
    · rintro ⟨g, i⟩
      by_cases hg : g = f
      · subst hg
        have hnot : (g, i) ∉ slots := fun hslot => hother _ hslot rfl
        rw [childAt?_cons_self, List.mem_append, or_iff_left hnot]
        simp
      · have hnot : (g, i) ∉ (List.range nodes.length).map (f, ·) := fun hown => by
          obtain ⟨_, -, heq⟩ := List.mem_map.1 hown
          exact hg (Prod.mk.inj heq).1.symm
        rw [childAt?_cons_of_ne hg, List.mem_append, or_iff_right hnot, hmem]
    · rw [List.map_append, List.flatMap_cons, List.map_append, ← hmap, List.map_map]
      congr 1
      · refine List.ext_getElem (by simp) fun i hi hi' => ?_
        rw [List.getElem_map, List.getElem_range, List.getElem_map, Function.comp_apply,
          childAt?_cons_self, List.getElem?_eq_getElem]
      · exact List.map_congr_left fun slot hslot => childAt?_cons_of_ne (hother slot hslot) slot.2

/-- A list of which the values are wanted in another order can be put into such an order. -/
theorem exists_map_eq_of_perm {α β : Type} {φ : α → β} {values wanted : List β}
    (h : values.Perm wanted) {xs : List α} (hxs : xs.map φ = values) :
    ∃ ys : List α, ys.Perm xs ∧ ys.map φ = wanted := by
  induction h generalizing xs with
  | nil => exact ⟨[], by rw [List.map_eq_nil_iff.1 hxs], rfl⟩
  | cons value _ ih =>
    obtain ⟨x, rest, rfl, rfl, hrest⟩ := List.map_eq_cons_iff.1 hxs
    obtain ⟨ys, hperm, rfl⟩ := ih hrest
    exact ⟨x :: ys, hperm.cons x, rfl⟩
  | swap _ _ _ =>
    obtain ⟨x, rest, rfl, rfl, hrest⟩ := List.map_eq_cons_iff.1 hxs
    obtain ⟨y, last, rfl, rfl, rfl⟩ := List.map_eq_cons_iff.1 hrest
    exact ⟨y :: x :: last, .swap .., rfl⟩
  | trans _ _ ih ih' =>
    obtain ⟨ys, hys, hmiddle⟩ := ih hxs
    obtain ⟨zs, hzs, hwanted⟩ := ih' hmiddle
    exact ⟨zs, hzs.trans hys, hwanted⟩

end Slots

/-! ### Walks and places -/

/-- **A walk goes through places**: through all that have a node, through each of them once, and without
a gap between a place and those below it. -/
structure Visits (at? : NodePlace → Option Node) (nodes : List Node)
    (places : List NodePlace) : Prop where
  nodup : places.Nodup
  mem_iff : ∀ p, p ∈ places ↔ (at? p).isSome = true
  nodes : places.map at? = nodes.map some
  contiguous : Contiguous places

/-- The places in some slots, as far as they have a node. -/
structure VisitsSlots (fields : List (Field × List Node)) (slots : List (Field × Nat))
    (nodes : List Node) (places : List NodePlace) : Prop where
  nodup : places.Nodup
  mem_iff : ∀ p, p ∈ places ↔ ∃ slot ∈ slots, ∃ q, p = slot :: q ∧ (placeIn? fields p).isSome = true
  nodes : places.map (placeIn? fields) = nodes.map some
  contiguous : Contiguous places

section Visits

variable {fields : List (Field × List Node)} {slot : Field × Nat} {slots : List (Field × Nat)}
  {n c : Node} {nodes : List Node} {places others : List NodePlace}

theorem placeIn?_cons (h : childAt? fields slot = some c) (place : NodePlace) :
    placeIn? fields (slot :: place) = c.at? place := by
  rw [placeIn?, h, Option.bind_some]

/-- **One slot more**: what is below it comes first. -/
theorem VisitsSlots.cons (hslot : childAt? fields slot = some c) (hnew : slot ∉ slots)
    (hc : Visits c.at? c.walk places) (h : VisitsSlots fields slots nodes others) :
    VisitsSlots fields (slot :: slots) (c.walk ++ nodes) (places.map (slot :: ·) ++ others) := by
  have hothers {p : NodePlace} (hp : p ∈ others) : ∃ other ∈ slots, ∃ q, p = other :: q := by
    obtain ⟨other, hother, q, rfl, -⟩ := (h.mem_iff p).1 hp
    exact ⟨other, hother, q, rfl⟩
  have hapart : ∀ p ∈ places.map (slot :: ·), ∀ q ∈ others, ¬ p <+: q ∧ ¬ q <+: p := by
    intro p hp q hq
    obtain ⟨inner, -, rfl⟩ := List.mem_map.1 hp
    obtain ⟨other, hother, rest, rfl⟩ := hothers hq
    have hne : slot ≠ other := fun heq => hnew (heq ▸ hother)
    exact ⟨fun hpre => hne (List.cons_prefix_cons.1 hpre).1,
      fun hpre => hne (List.cons_prefix_cons.1 hpre).1.symm⟩
  refine ⟨?_, fun p => ?_, ?_, (hc.contiguous.map_cons slot).append h.contiguous hapart⟩
  · refine List.nodup_append.2 ⟨hc.nodup.map (List.cons_injective), h.nodup, fun p hp q hq => ?_⟩
    rintro rfl
    exact (hapart p hp p hq).1 (List.prefix_refl p)
  · rw [List.mem_append, h.mem_iff]
    constructor
    · rintro (hp | ⟨other, hother, hp⟩)
      · obtain ⟨inner, hinner, rfl⟩ := List.mem_map.1 hp
        refine ⟨slot, List.mem_cons_self, inner, rfl, ?_⟩
        rw [placeIn?_cons hslot]
        exact (hc.mem_iff inner).1 hinner
      · exact ⟨other, List.mem_cons_of_mem _ hother, hp⟩
    · rintro ⟨other, hother, q, rfl, hq⟩
      rcases List.mem_cons.1 hother with rfl | hother
      · rw [placeIn?_cons hslot] at hq
        exact .inl (List.mem_map_of_mem ((hc.mem_iff q).2 hq))
      · exact .inr ⟨other, hother, q, rfl, hq⟩
  · have hinner : (places.map (slot :: ·)).map (placeIn? fields) = c.walk.map some := by
      rw [List.map_map, ← hc.nodes]
      exact List.map_congr_left fun q _ => placeIn?_cons hslot q
    rw [List.map_append, List.map_append, hinner, h.nodes]

theorem exists_visitsSlots (hnodup : slots.Nodup) (hslots : slots.map (childAt? fields) = nodes.map some)
    (hnodes : ∀ c ∈ nodes, ∃ places, Visits c.at? c.walk places) :
    ∃ places, VisitsSlots fields slots (nodes.flatMap Node.walk) places := by
  induction slots generalizing nodes with
  | nil =>
    obtain rfl : nodes = [] := List.map_eq_nil_iff.1 hslots.symm
    exact ⟨[], .nil, fun p => by simp, rfl, .nil⟩
  | cons slot slots ih =>
    obtain ⟨hnew, hrest⟩ := List.nodup_cons.1 hnodup
    obtain ⟨c, cs, rfl, hslot, hcs⟩ := List.map_eq_cons_iff.1 hslots.symm
    obtain ⟨places, hplaces⟩ := hnodes c List.mem_cons_self
    obtain ⟨others, hothers⟩ := ih hrest hcs.symm fun d hd => hnodes d (List.mem_cons_of_mem _ hd)
    exact ⟨_, .cons hslot.symm hnew hplaces hothers⟩

/-- **The nodes in some fields**, in any order. -/
theorem exists_visits_below (hfields : (fields.map Prod.fst).Nodup)
    (hperm : (fields.flatMap Prod.snd).Perm nodes)
    (hnodes : ∀ c ∈ nodes, ∃ places, Visits c.at? c.walk places) :
    ∃ places, Visits (placeIn? fields) (nodes.flatMap Node.walk) places := by
  obtain ⟨slots, hnodup, hmem, hmap⟩ := exists_slots hfields
  obtain ⟨ordered, horder, hordered⟩ := exists_map_eq_of_perm (hperm.map some) hmap
  obtain ⟨places, hplaces⟩ := exists_visitsSlots (horder.nodup_iff.2 hnodup) hordered hnodes
  refine ⟨places, hplaces.nodup, fun p => ?_, hplaces.nodes, hplaces.contiguous⟩
  rw [hplaces.mem_iff]
  constructor
  · rintro ⟨_, _, _, _, hp⟩
    exact hp
  · intro hp
    rcases p with _ | ⟨slot, q⟩
    · nomatch hp
    · have hslot : (childAt? fields slot).isSome = true := by
        obtain ⟨c, hc⟩ := Option.isSome_iff_exists.1 hp
        obtain ⟨d, hd, -⟩ := Option.bind_eq_some_iff.1 hc
        exact Option.isSome_iff_exists.2 ⟨d, hd⟩
      exact ⟨slot, horder.mem_iff.2 ((hmem slot).2 hslot), q, rfl, hp⟩

/-- **A node** comes before what is below it. -/
theorem Visits.cons (h : Visits (placeIn? n.fields) (n.children.flatMap Node.walk) places) :
    Visits n.at? n.walk ([] :: places) := by
  have hbelow : ∀ p ∈ places, p ≠ [] := by
    rintro p hp rfl
    exact nomatch (h.mem_iff []).1 hp
  have hsame : ∀ p ∈ places, n.at? p = placeIn? n.fields p := by
    intro p hp
    rcases p with _ | ⟨slot, q⟩
    · exact absurd rfl (hbelow [] hp)
    · rfl
  refine ⟨List.nodup_cons.2 ⟨fun hnil => hbelow [] hnil rfl, h.nodup⟩, fun p => ?_, ?_,
    h.contiguous.root hbelow⟩
  · rcases p with _ | ⟨slot, q⟩
    · exact iff_of_true List.mem_cons_self rfl
    · rw [List.mem_cons, or_iff_right (List.cons_ne_nil slot q), h.mem_iff]
      rfl
  · rw [Node.walk_eq, List.map_cons, List.map_cons, ← h.nodes, List.map_congr_left hsame]
    rfl

/-- **The walk through a node** goes through all places at it and below it. -/
theorem exists_visits (n : Node) : ∃ places, Visits n.at? n.walk places := by
  induction n using Node.induction_children with
  | h n ih =>
    obtain ⟨places, hplaces⟩ := exists_visits_below n.fields_nodup n.children_perm ih
    exact ⟨_, hplaces.cons⟩

end Visits

/-! ### The walk through a template -/

theorem walkAll_eq (body : List Stmt) : walkAll body = (body.map Node.stmt).flatMap Node.walk := by
  rw [walkAll, List.flatMap_map]
  rfl

/-- The walk through a template goes through all of its places. -/
theorem exists_visits_template (body : List Stmt) :
    ∃ places, Visits (nodeAt? body) (walkAll body) places := by
  rw [walkAll_eq]
  exact exists_visits_below (by simp) (by simp) fun c _ => exists_visits c

theorem Node.mem_walk_of_mem_children {n m c : Node} (hm : m ∈ n.walk) (hc : c ∈ m.children) :
    c ∈ n.walk := by
  induction n using Node.induction_children with
  | h n ih =>
    rw [walk_eq] at hm ⊢
    rcases List.mem_cons.1 hm with rfl | hm
    · exact List.mem_cons_of_mem _ (List.mem_flatMap.2 ⟨c, hc, c.mem_walk_self⟩)
    · obtain ⟨d, hd, hm⟩ := List.mem_flatMap.1 hm
      exact List.mem_cons_of_mem _ (List.mem_flatMap.2 ⟨d, hd, ih d hd hm⟩)

/-- **The walk is complete.** It meets the node of every place of a template once, and leaves nothing
else between a node and what is below it. So it meets all statements of the template and all that the
fields of its nodes hold, and `findAll` gives the expressions that satisfy a condition in that order. -/
theorem walk_complete (body : List Stmt) :
    (∃ places : List NodePlace, places.Nodup ∧ (∀ p, p ∈ places ↔ (nodeAt? body p).isSome = true) ∧
      places.map (nodeAt? body) = (walkAll body).map some ∧ Contiguous places ∧
      ∀ p : Expr → Bool,
        findAll p body = (places.filterMap fun q => (nodeAt? body q).bind Node.expr?).filter p) ∧
    (∀ s ∈ body, .stmt s ∈ walkAll body) ∧
    ∀ n ∈ walkAll body, ∀ field ∈ n.fields, ∀ c ∈ field.2, c ∈ walkAll body := by
  obtain ⟨places, hplaces⟩ := exists_visits_template body
  refine ⟨⟨places, hplaces.nodup, hplaces.mem_iff, hplaces.nodes, hplaces.contiguous, fun p => ?_⟩,
    fun s hs => ?_, fun n hn field hfield c hc => ?_⟩
  · have hfound : (places.filterMap fun q => (nodeAt? body q).bind Node.expr?) =
        (walkAll body).filterMap Node.expr? := by
      have hboth := congrArg (List.filterMap fun n? => n?.bind Node.expr?) hplaces.nodes
      rw [List.filterMap_map, List.filterMap_map] at hboth
      exact hboth
    rw [findAll, hfound]
  · rw [walkAll_eq, List.mem_flatMap]
    exact ⟨.stmt s, List.mem_map_of_mem hs, Node.mem_walk_self _⟩
  · rw [walkAll_eq] at hn ⊢
    obtain ⟨m, hm, hn⟩ := List.mem_flatMap.1 hn
    have hchild : c ∈ n.children := n.children_perm.mem_iff.1 (List.mem_flatMap.2 ⟨field, hfield, hc⟩)
    exact List.mem_flatMap.2 ⟨m, hm, Node.mem_walk_of_mem_children hn hchild⟩

end LiquidTemplate
