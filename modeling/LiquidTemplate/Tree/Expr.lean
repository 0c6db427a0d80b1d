/-!
# Expressions

* `Expr`: the expressions of a template, each with the line of its node.
* `Arguments`: what a call, a filter or a test is applied to.
* `Expr.children`: the direct subexpressions, from left to right.
* `Expr.setContext`: marks names as read, written or bound as parameters.
* `Expr.isAssignable`: whether an expression can stand on the left of an assignment.
* `Expr.sizeOf_lt_of_mem_children`: subexpressions are smaller, so that recursion over them ends.
-/

namespace LiquidTemplate

/-- **Use of a name**: read, written, or bound as a parameter. -/
inductive Context where
  | load | store | param
deriving DecidableEq, Repr

/-- **Constants.** -/
inductive Constant where
  | none
  | bool (value : Bool)
  | int (value : Int64)
  | float (value : Float)
  | str (value : String)

/-- **Operators** with two operands. -/
inductive BinaryOp where
  | add | sub | mul | div | floorDiv | mod | pow
deriving DecidableEq, Repr

/-- **Comparisons.** -/
inductive Comparison where
  | eq | ne | lt | ltEq | gt | gtEq | isIn | notIn
deriving DecidableEq, Repr

/-- One link of a chain of comparisons. -/
structure Operand (ε : Type) where
  op : Comparison
  expr : ε

/-- An entry of a dictionary. -/
structure Entry (ε : Type) where
  key : ε
  value : ε
  line : Nat

/-- An argument or option with a name. -/
structure Keyword (ε : Type) where
  key : String
  value : ε
  line : Nat

/-- **Arguments**: in order, by name, and spread out of a list and of a dictionary. -/
structure Arguments (ε : Type) where
  positional : List ε := []
  keywords : List (Keyword ε) := []
  spread : Option ε := none
  spreadKeywords : Option ε := none

/-- **Expressions.** The last field of each is the line of the node. -/
inductive Expr where
  | const (value : Constant) (line : Nat)
  /-- Text of the template, as an output statement shows it. -/
  | templateData (data : String) (line : Nat)
  | name (name : String) (context : Context) (line : Nat)
  /-- A name that the parser makes up; no template text spells it. -/
  | internalName (name : String) (line : Nat)
  | tuple (items : List Expr) (context : Context) (line : Nat)
  | list (items : List Expr) (line : Nat)
  | dict (entries : List (Entry Expr)) (line : Nat)
  | member (node : Expr) (attr : String) (line : Nat)
  | item (node : Expr) (arg : Expr) (line : Nat)
  | slice (start stop step : Option Expr) (line : Nat)
  | call (node : Expr) (args : Arguments Expr) (line : Nat)
  /-- A filter; the one of a filter block has no input. -/
  | filter (node : Option Expr) (name : String) (args : Arguments Expr) (line : Nat)
  | test (node : Expr) (name : String) (args : Arguments Expr) (line : Nat)
  | conditional (cond yes : Expr) (no : Option Expr) (line : Nat)
  | and (left right : Expr) (line : Nat)
  | or (left right : Expr) (line : Nat)
  | not (node : Expr) (line : Nat)
  | neg (node : Expr) (line : Nat)
  | pos (node : Expr) (line : Nat)
  | binary (op : BinaryOp) (left right : Expr) (line : Nat)
  | concat (nodes : List Expr) (line : Nat)
  | compare (expr : Expr) (operands : List (Operand Expr)) (line : Nat)

instance : Inhabited Expr := ⟨.const .none 0⟩

namespace Arguments

variable {ε : Type}

/-- Whether there is no argument of any kind. -/
def isEmpty (a : Arguments ε) : Bool :=
  a.positional.isEmpty && a.keywords.isEmpty && a.spread.isNone && a.spreadKeywords.isNone

/-- The value of the first argument with the given name. -/
def keyword? (a : Arguments ε) (key : String) : Option ε :=
  (a.keywords.find? fun k => k.key == key).map Keyword.value

/-- All values, in order. -/
def values (a : Arguments ε) : List ε :=
  a.positional ++ a.keywords.map Keyword.value ++ a.spread.toList ++ a.spreadKeywords.toList

end Arguments

namespace Expr

/-- The line of a node. -/
def line : Expr → Nat
  | const _ l | templateData _ l | name _ _ l | internalName _ l | tuple _ _ l | list _ l | dict _ l
  | member _ _ l | item _ _ l | slice _ _ _ l | call _ _ l | filter _ _ _ l | test _ _ _ l
  | conditional _ _ _ l | and _ _ l | or _ _ l | not _ l | neg _ l | pos _ l | binary _ _ _ l
  | concat _ l | compare _ _ l => l

/-- What kind of node it is, as messages say it. -/
def kind : Expr → String
  | const .. => "const"
  | templateData .. => "templatedata"
  | name .. => "name"
  | internalName .. => "internalname"
  | tuple .. => "tuple"
  | list .. => "list"
  | dict .. => "dict"
  | member .. => "getattr"
  | item .. => "getitem"
  | slice .. => "slice"
  | call .. => "call"
  | filter .. => "filter"
  | test .. => "test"
  | conditional .. => "condexpr"
  | and .. => "and"
  | or .. => "or"
  | not .. => "not"
  | neg .. => "neg"
  | pos .. => "pos"
  | binary .. => "binop"
  | concat .. => "concat"
  | compare .. => "compare"

/-- The text of a name; empty for other expressions. -/
def nameText : Expr → String
  | name text _ _ | internalName text _ => text
  | _ => ""

/-- **Direct subexpressions**, from left to right; a condition comes before its alternatives. -/
def children : Expr → List Expr
  | const .. | templateData .. | name .. | internalName .. => []
  | tuple items _ _ | list items _ | concat items _ => items
  | dict entries _ => entries.flatMap fun e => [e.key, e.value]
  | member node _ _ | not node _ | neg node _ | pos node _ => [node]
  | item node arg _ => [node, arg]
  | slice start stop step _ => start.toList ++ stop.toList ++ step.toList
  | call node args _ | test node _ args _ => node :: args.values
  | filter node _ args _ => node.toList ++ args.values
  | conditional cond yes no _ => cond :: yes :: no.toList
  | and left right _ | or left right _ | binary _ left right _ => [left, right]
  | compare expr operands _ => expr :: operands.map Operand.expr

/-- A value of the arguments is smaller than they are. -/
theorem sizeOf_lt_of_mem_values {a : Arguments Expr} {e : Expr}
    (h : e ∈ a.values) : sizeOf e < sizeOf a := by
  obtain ⟨p, k, s, d⟩ := a
  simp only [Arguments.values, List.mem_append, List.mem_map, Option.mem_toList] at h
  rcases h with ((h | ⟨⟨key, value, l⟩, hk, rfl⟩) | h) | h
  · have := List.sizeOf_lt_of_mem h
    simp only [Arguments.mk.sizeOf_spec]
    omega
  · have := List.sizeOf_lt_of_mem hk
    simp only [Arguments.mk.sizeOf_spec, Keyword.mk.sizeOf_spec] at this ⊢
    omega
  · obtain rfl : s = some e := h
    simp only [Arguments.mk.sizeOf_spec, Option.some.sizeOf_spec]
    omega
  · obtain rfl : d = some e := h
    simp only [Arguments.mk.sizeOf_spec, Option.some.sizeOf_spec]
    omega

/-- **Subexpressions are smaller.** -/
theorem sizeOf_lt_of_mem_children {e c : Expr} (h : c ∈ e.children) : sizeOf c < sizeOf e := by
  have opt : ∀ {o : Option Expr}, c ∈ o.toList → sizeOf c < sizeOf o := by
    intro o ho
    obtain rfl : o = some c := Option.mem_toList.1 ho
    simp only [Option.some.sizeOf_spec]
    omega
  cases e <;> simp only [children, List.not_mem_nil, List.mem_cons, List.mem_append, List.mem_map,
    List.mem_flatMap, or_false] at h
  case tuple | list | concat =>
    have := List.sizeOf_lt_of_mem h
    simp only [tuple.sizeOf_spec, list.sizeOf_spec, concat.sizeOf_spec]
    omega
  case dict entries l =>
    obtain ⟨⟨k, v, m⟩, hm, hc⟩ := h
    have := List.sizeOf_lt_of_mem hm
    simp only [dict.sizeOf_spec, Entry.mk.sizeOf_spec] at this ⊢
    rcases hc with rfl | rfl <;> omega
  case member | not | neg | pos =>
    subst h
    simp only [member.sizeOf_spec, not.sizeOf_spec, neg.sizeOf_spec, pos.sizeOf_spec]
    omega
  case item | and | or | binary =>
    rcases h with rfl | rfl <;>
      simp only [item.sizeOf_spec, and.sizeOf_spec, or.sizeOf_spec, binary.sizeOf_spec] <;> omega
  case slice =>
    rcases h with (h | h) | h <;> have := opt h <;> simp only [slice.sizeOf_spec] <;> omega
  case call | test =>
    rcases h with rfl | h
    · simp only [call.sizeOf_spec, test.sizeOf_spec]
      omega
    · have := sizeOf_lt_of_mem_values h
      simp only [call.sizeOf_spec, test.sizeOf_spec]
      omega
  case filter =>
    rcases h with h | h
    · have := opt h
      simp only [filter.sizeOf_spec]
      omega
    · have := sizeOf_lt_of_mem_values h
      simp only [filter.sizeOf_spec]
      omega
  case conditional =>
    rcases h with rfl | rfl | h
    · simp only [conditional.sizeOf_spec]
      omega
    · simp only [conditional.sizeOf_spec]
      omega
    · have := opt h
      simp only [conditional.sizeOf_spec]
      omega
  case compare =>
    rcases h with rfl | ⟨⟨op, e⟩, ho, rfl⟩
    · simp only [compare.sizeOf_spec]
      omega
    · have := List.sizeOf_lt_of_mem ho
      simp only [compare.sizeOf_spec, Operand.mk.sizeOf_spec] at this ⊢
      omega

mutual

/-- **Change of use.** Names and tuples, and what is in the tuples, get the context. -/
def setContext (context : Context) : Expr → Expr
  | name n _ l => name n context l
  | tuple items _ l => tuple (setContexts context items) context l
  | e => e

/-- Change of use of all expressions of a list. -/
def setContexts (context : Context) : List Expr → List Expr
  | [] => []
  | e :: es => setContext context e :: setContexts context es

end

/-- The names of constants, which cannot be assigned to. -/
def constantNames : List String :=
  ["true", "false", "none", "True", "False", "None"]

mutual

/-- **Assignable**: names, but not those of constants, and tuples of assignable expressions. -/
def isAssignable : Expr → Bool
  | name n _ _ => !constantNames.contains n
  | internalName .. => true
  | tuple items _ _ => areAssignable items
  | _ => false

/-- Whether all expressions of a list are assignable. -/
def areAssignable : List Expr → Bool
  | [] => true
  | e :: es => isAssignable e && areAssignable es

end

theorem setContexts_eq_map (context : Context) (es : List Expr) :
    setContexts context es = es.map (setContext context) := by
  induction es with
  | nil => rfl
  | cons e es ih => simp [setContexts, ih]

theorem areAssignable_eq_all (es : List Expr) : areAssignable es = es.all isAssignable := by
  induction es with
  | nil => rfl
  | cons e es ih => simp [areAssignable, ih]

/-- Only the last use counts. -/
theorem setContext_setContext (c d : Context) (e : Expr) :
    (e.setContext d).setContext c = e.setContext c := by
  match e with
  | tuple items c' l =>
      have hitems : items.map (fun x => (x.setContext d).setContext c) =
          items.map (setContext c) :=
        List.map_congr_left fun x hx => setContext_setContext c d x
      simp only [setContext, setContexts_eq_map, List.map_map]
      exact congrArg (tuple · c l) hitems
  | const .. | templateData .. | name .. | internalName .. | list .. | dict .. | member ..
  | item .. | slice .. | call .. | filter .. | test .. | conditional .. | and .. | or .. | not ..
  | neg .. | pos .. | binary .. | concat .. | compare .. => rfl
termination_by e
decreasing_by
  have := List.sizeOf_lt_of_mem hx
  simp only [tuple.sizeOf_spec]
  omega

mutual

/-- What can be assigned to does not depend on its use. -/
theorem isAssignable_setContext (c : Context) :
    ∀ e : Expr, (e.setContext c).isAssignable = e.isAssignable
  | name .. => rfl
  | tuple items _ _ => by
      rw [setContext, isAssignable, isAssignable]
      exact areAssignable_setContexts c items
  | const .. | templateData .. | internalName .. | list .. | dict .. | member .. | item .. | slice ..
  | call .. | filter .. | test .. | conditional .. | and .. | or .. | not .. | neg .. | pos ..
  | binary .. | concat .. | compare .. => rfl

theorem areAssignable_setContexts (c : Context) :
    ∀ es : List Expr, areAssignable (setContexts c es) = areAssignable es
  | [] => rfl
  | e :: es => by
      rw [setContexts, areAssignable, areAssignable, isAssignable_setContext c e,
        areAssignable_setContexts c es]

end

end Expr

end LiquidTemplate
