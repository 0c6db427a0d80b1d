import LiquidTemplate.Proofs.Cases.Names

/-!
# Other names for made-up names

The made-up names of a tree are replaced, and everything else stays: other names, contexts, lines.

* `Expr.renamed`, `Stmt.renamed`: a tree with other made-up names.
* `Expr.renamed_eq_self`: a tree whose made-up names stay as they are.
* `Stmt.renamed_caseChain`: the chains of conditions of case distinctions.
* `renumbered`: the made-up name whose number is higher.
-/

namespace LiquidTemplate

variable {f : String → String} {e : Expr} {k : Nat}

/-! ### Expressions -/

namespace Expr

mutual

/-- **An expression with other made-up names.** -/
def renamed (f : String → String) : Expr → Expr
  | const value l => const value l
  | templateData data l => templateData data l
  | name n context l => name n context l
  | internalName n l => internalName (f n) l
  | tuple items context l => tuple (listRenamed f items) context l
  | list items l => list (listRenamed f items) l
  | dict entries l => dict (entriesRenamed f entries) l
  | member node attr l => member (renamed f node) attr l
  | item node arg l => item (renamed f node) (renamed f arg) l
  | slice start stop step l =>
    slice (optionRenamed f start) (optionRenamed f stop) (optionRenamed f step) l
  | call node args l => call (renamed f node) (argumentsRenamed f args) l
  | filter node n args l => filter (optionRenamed f node) n (argumentsRenamed f args) l
  | test node n args l => test (renamed f node) n (argumentsRenamed f args) l
  | conditional cond yes no l =>
    conditional (renamed f cond) (renamed f yes) (optionRenamed f no) l
  | and left right l => and (renamed f left) (renamed f right) l
  | or left right l => or (renamed f left) (renamed f right) l
  | not node l => not (renamed f node) l
  | neg node l => neg (renamed f node) l
  | pos node l => pos (renamed f node) l
  | binary op left right l => binary op (renamed f left) (renamed f right) l
  | concat nodes l => concat (listRenamed f nodes) l
  | compare e operands l => compare (renamed f e) (operandsRenamed f operands) l

/-- The expressions of a list with other made-up names. -/
def listRenamed (f : String → String) : List Expr → List Expr
  | [] => []
  | e :: es => renamed f e :: listRenamed f es

/-- An expression that can be left out, with other made-up names. -/
def optionRenamed (f : String → String) : Option Expr → Option Expr
  | none => none
  | some e => some (renamed f e)

/-- The entries of a dictionary with other made-up names. -/
def entriesRenamed (f : String → String) : List (Entry Expr) → List (Entry Expr)
  | [] => []
  | ⟨key, value, l⟩ :: es => ⟨renamed f key, renamed f value, l⟩ :: entriesRenamed f es

/-- Keywords with other made-up names. -/
def keywordsRenamed (f : String → String) : List (Keyword Expr) → List (Keyword Expr)
  | [] => []
  | ⟨key, value, l⟩ :: ks => ⟨key, renamed f value, l⟩ :: keywordsRenamed f ks

/-- Arguments with other made-up names. -/
def argumentsRenamed (f : String → String) : Arguments Expr → Arguments Expr
  | ⟨positional, keywords, spread, spreadKeywords⟩ =>
    ⟨listRenamed f positional, keywordsRenamed f keywords, optionRenamed f spread,
      optionRenamed f spreadKeywords⟩

/-- The links of a chain of comparisons with other made-up names. -/
def operandsRenamed (f : String → String) : List (Operand Expr) → List (Operand Expr)
  | [] => []
  | ⟨op, e⟩ :: os => ⟨op, renamed f e⟩ :: operandsRenamed f os

end

/-! #### Lists and options -/

@[simp] theorem listRenamed_eq_map (es : List Expr) : listRenamed f es = es.map (renamed f) := by
  induction es with
  | nil => rfl
  | cons e es ih => rw [listRenamed, ih, List.map_cons]

@[simp] theorem optionRenamed_eq_map (e : Option Expr) : optionRenamed f e = e.map (renamed f) := by
  cases e <;> rfl

@[simp] theorem entriesRenamed_eq_map (es : List (Entry Expr)) :
    entriesRenamed f es = es.map fun e => ⟨e.key.renamed f, e.value.renamed f, e.line⟩ := by
  induction es with
  | nil => rfl
  | cons e es ih => rw [entriesRenamed, ih, List.map_cons]

@[simp] theorem keywordsRenamed_eq_map (ks : List (Keyword Expr)) :
    keywordsRenamed f ks = ks.map fun k => ⟨k.key, k.value.renamed f, k.line⟩ := by
  induction ks with
  | nil => rfl
  | cons k ks ih => rw [keywordsRenamed, ih, List.map_cons]

@[simp] theorem operandsRenamed_eq_map (os : List (Operand Expr)) :
    operandsRenamed f os = os.map fun o => ⟨o.op, o.expr.renamed f⟩ := by
  induction os with
  | nil => rfl
  | cons o os ih => rw [operandsRenamed, ih, List.map_cons]

@[simp] theorem renamed_line (f : String → String) (e : Expr) : (e.renamed f).line = e.line := by
  cases e <;> rfl

/-! #### What stays as it is -/

theorem map_renamed_eq_self {es : List Expr} (h : ∀ e ∈ es, e.renamed f = e) :
    es.map (renamed f) = es :=
  (List.map_congr_left h).trans (List.map_id _)

theorem optionMap_renamed_eq_self {o : Option Expr} (h : ∀ e ∈ o.toList, e.renamed f = e) :
    o.map (renamed f) = o := by
  cases o with
  | none => rfl
  | some e => exact congrArg some (h e List.mem_cons_self)

theorem argumentsRenamed_eq_self {a : Arguments Expr} (h : ∀ e ∈ a.values, e.renamed f = e) :
    argumentsRenamed f a = a := by
  obtain ⟨positional, keywords, spread, spreadKeywords⟩ := a
  simp only [Arguments.values, List.mem_append, or_imp, forall_and] at h
  obtain ⟨⟨⟨hpositional, hkeywords⟩, hspread⟩, hspreadKeywords⟩ := h
  have hkeywords : keywordsRenamed f keywords = keywords := by
    rw [keywordsRenamed_eq_map]
    refine (List.map_congr_left fun k hk => ?_).trans (List.map_id _)
    rw [hkeywords _ (List.mem_map_of_mem hk)]
    rfl
  rw [argumentsRenamed, hkeywords, listRenamed_eq_map, optionRenamed_eq_map, optionRenamed_eq_map,
    map_renamed_eq_self hpositional, optionMap_renamed_eq_self hspread,
    optionMap_renamed_eq_self hspreadKeywords]

/-- What stays as it is if its subexpressions do. -/
theorem renamed_of_children (hself : ∀ text line, e = .internalName text line → f text = text)
    (h : ∀ c ∈ e.children, c.renamed f = c) : e.renamed f = e := by
  cases e <;> simp only [children, List.forall_mem_cons, List.mem_append, or_imp, forall_and,
    List.not_mem_nil, false_implies, implies_true, and_true] at h
  case const | templateData | name => rfl
  case internalName text line => rw [renamed, hself text line rfl]
  case tuple | list | concat => rw [renamed, listRenamed_eq_map, map_renamed_eq_self h]
  case dict entries l =>
    have hentries : entriesRenamed f entries = entries := by
      rw [entriesRenamed_eq_map]
      refine (List.map_congr_left fun x hx => ?_).trans (List.map_id _)
      have hentry {c : Expr} (hc : c ∈ [x.key, x.value]) : c.renamed f = c :=
        h c (List.mem_flatMap.2 ⟨x, hx, hc⟩)
      rw [hentry List.mem_cons_self, hentry (List.mem_cons_of_mem _ List.mem_cons_self)]
      rfl
    rw [renamed, hentries]
  case member | not | neg | pos => rw [renamed, h]
  case item | and | or | binary => rw [renamed, h.1, h.2]
  case slice =>
    rw [renamed, optionRenamed_eq_map, optionRenamed_eq_map, optionRenamed_eq_map,
      optionMap_renamed_eq_self h.1.1, optionMap_renamed_eq_self h.1.2, optionMap_renamed_eq_self h.2]
  case call | test => rw [renamed, h.1, argumentsRenamed_eq_self h.2]
  case filter =>
    rw [renamed, optionRenamed_eq_map, optionMap_renamed_eq_self h.1, argumentsRenamed_eq_self h.2]
  case conditional =>
    rw [renamed, h.1, h.2.1, optionRenamed_eq_map, optionMap_renamed_eq_self h.2.2]
  case compare e operands l =>
    have hoperands : operandsRenamed f operands = operands := by
      rw [operandsRenamed_eq_map]
      refine (List.map_congr_left fun o ho => ?_).trans (List.map_id _)
      rw [h.2 _ (List.mem_map_of_mem ho)]
      rfl
    rw [renamed, h.1, hoperands]

/-- **An expression whose made-up names stay as they are** is the same. -/
theorem renamed_eq_self (h : ∀ text line, .internalName text line ∈ e.walk → f text = text) :
    e.renamed f = e := by
  induction hn : sizeOf e using Nat.strongRecOn generalizing e with
  | _ n ih =>
    refine renamed_of_children ?_ fun c hc => ?_
    · rintro text line rfl
      exact h text line (walk_eq _ ▸ List.mem_cons_self)
    · refine ih (sizeOf c) (hn ▸ sizeOf_lt_of_mem_children hc) (fun text line hd => ?_) rfl
      refine h text line ?_
      rw [walk_eq]
      exact List.mem_cons_of_mem _ (List.mem_flatMap.2 ⟨c, hc, hd⟩)

/-- **What has no made-up names** is the same with others. -/
theorem Plain.renamed (h : e.Plain) (f : String → String) : e.renamed f = e :=
  renamed_eq_self fun text line hmem => absurd hmem (h text line)

theorem renamed_id (e : Expr) : e.renamed id = e :=
  renamed_eq_self fun _ _ _ => rfl

end Expr

/-! ### Statements -/

namespace Stmt

mutual

/-- **A statement with other made-up names.** -/
def renamed (f : String → String) : Stmt → Stmt
  | output nodes l => output (nodes.map (Expr.renamed f)) l
  | extendsTemplate template l => extendsTemplate (template.renamed f) l
  | forLoop target iter body otherwise test recursive l =>
    forLoop (target.renamed f) (iter.renamed f) (listRenamed f body) (listRenamed f otherwise)
      (test.map (Expr.renamed f)) recursive l
  | ifThen test body otherwise l =>
    ifThen (test.renamed f) (listRenamed f body) (listRenamed f otherwise) l
  | breakLoop l => breakLoop l
  | continueLoop l => continueLoop l
  | withBlock targets values body l =>
    withBlock (targets.map (Expr.renamed f)) (values.map (Expr.renamed f)) (listRenamed f body) l
  | scope body l => scope (listRenamed f body) l
  | optionBlock options body l => optionBlock (Expr.keywordsRenamed f options) (listRenamed f body) l
  | block n isScoped body l => block n isScoped (listRenamed f body) l
  | includeTemplate template ignoreMissing withContext l =>
    includeTemplate (template.renamed f) ignoreMissing withContext l
  | sectionTemplate template ignoreMissing withContext l =>
    sectionTemplate (template.renamed f) ignoreMissing withContext l
  | importTemplate template target withContext l =>
    importTemplate (template.renamed f) target withContext l
  | importNames template names withContext l =>
    importNames (template.renamed f) names withContext l
  | macroBlock n params defaults body l =>
    macroBlock n (params.map (Expr.renamed f)) (defaults.map (Expr.renamed f)) (listRenamed f body) l
  | callBlock call params defaults body l =>
    callBlock (call.renamed f) (params.map (Expr.renamed f)) (defaults.map (Expr.renamed f))
      (listRenamed f body) l
  | filterBlock filter body l => filterBlock (filter.renamed f) (listRenamed f body) l
  | assign target value l => assign (target.renamed f) (value.renamed f) l
  | assignBlock target body l => assignBlock (target.renamed f) (listRenamed f body) l
  | expr node l => expr (node.renamed f) l

/-- The statements of a list with other made-up names. -/
def listRenamed (f : String → String) : List Stmt → List Stmt
  | [] => []
  | s :: ss => renamed f s :: listRenamed f ss

end

@[simp] theorem listRenamed_eq_map (ss : List Stmt) : listRenamed f ss = ss.map (renamed f) := by
  induction ss with
  | nil => rfl
  | cons s ss ih => rw [listRenamed, ih, List.map_cons]

theorem map_renamed_eq_self {ss : List Stmt} (h : ∀ s ∈ ss, s.renamed f = s) :
    ss.map (renamed f) = ss :=
  (List.map_congr_left h).trans (List.map_id _)

/-- What stays as it is if its expressions and its inner statements do. -/
theorem renamed_of_parts {s : Stmt} (hexprs : ∀ e ∈ s.exprs, e.renamed f = e)
    (hbody : ∀ t ∈ s.body, t.renamed f = t) : s.renamed f = s := by
  cases s <;> simp only [exprs, body, List.forall_mem_cons, List.mem_append, or_imp, forall_and,
    List.not_mem_nil, false_implies, implies_true, and_true] at hexprs hbody
  case output => rw [renamed, Expr.map_renamed_eq_self hexprs]
  case extendsTemplate | includeTemplate | sectionTemplate | importTemplate | importNames | expr =>
    rw [renamed, hexprs]
  case forLoop =>
    rw [renamed, listRenamed_eq_map, listRenamed_eq_map, hexprs.1, hexprs.2.1,
      map_renamed_eq_self hbody.1, map_renamed_eq_self hbody.2,
      Expr.optionMap_renamed_eq_self hexprs.2.2]
  case ifThen =>
    rw [renamed, listRenamed_eq_map, listRenamed_eq_map, hexprs, map_renamed_eq_self hbody.1,
      map_renamed_eq_self hbody.2]
  case breakLoop | continueLoop => rfl
  case withBlock =>
    rw [renamed, listRenamed_eq_map, Expr.map_renamed_eq_self hexprs.1,
      Expr.map_renamed_eq_self hexprs.2, map_renamed_eq_self hbody]
  case scope | block => rw [renamed, listRenamed_eq_map, map_renamed_eq_self hbody]
  case optionBlock options _ _ =>
    have hoptions : Expr.keywordsRenamed f options = options := by
      rw [Expr.keywordsRenamed_eq_map]
      refine (List.map_congr_left fun k hk => ?_).trans (List.map_id _)
      rw [hexprs _ (List.mem_map_of_mem hk)]
      rfl
    rw [renamed, listRenamed_eq_map, hoptions, map_renamed_eq_self hbody]
  case macroBlock =>
    rw [renamed, listRenamed_eq_map, Expr.map_renamed_eq_self hexprs.1,
      Expr.map_renamed_eq_self hexprs.2, map_renamed_eq_self hbody]
  case callBlock =>
    rw [renamed, listRenamed_eq_map, hexprs.1, Expr.map_renamed_eq_self hexprs.2.1,
      Expr.map_renamed_eq_self hexprs.2.2, map_renamed_eq_self hbody]
  case filterBlock | assignBlock => rw [renamed, listRenamed_eq_map, hexprs, map_renamed_eq_self hbody]
  case assign => rw [renamed, hexprs.1, hexprs.2]

theorem renamed_id (s : Stmt) : s.renamed id = s := by
  induction hn : sizeOf s using Nat.strongRecOn generalizing s with
  | _ n ih =>
    refine renamed_of_parts (fun e _ => e.renamed_id) fun t ht => ?_
    exact ih (sizeOf t) (hn ▸ sizeOf_lt_of_mem_body ht) t rfl

end Stmt

/-! ### Case distinctions -/

namespace CaseBranch

/-- A branch with other made-up names. -/
def renamed (f : String → String) (b : CaseBranch) : CaseBranch :=
  ⟨b.values.map (Expr.renamed f), b.body.map (Stmt.renamed f), b.line⟩

theorem comparison_renamed (f : String → String) (b : CaseBranch) (subject : String) (value : Expr) :
    (b.renamed f).comparison (f subject) (value.renamed f) =
      (b.comparison subject value).renamed f := by
  rw [comparison, comparison, Expr.renamed, Expr.renamed, Expr.operandsRenamed_eq_map]
  rfl

/-- **The test of a branch** mentions the other name. -/
theorem test?_renamed (f : String → String) (b : CaseBranch) (subject : String) :
    (b.renamed f).test? (f subject) = (b.test? subject).map (Expr.renamed f) := by
  have hrest (values : List Expr) (first : Expr) :
      (values.map (Expr.renamed f)).foldl
          (fun e value => .or e ((b.renamed f).comparison (f subject) value) b.line) (first.renamed f) =
        (values.foldl (fun e value => Expr.or e (b.comparison subject value) b.line) first).renamed
          f := by
    induction values generalizing first with
    | nil => rfl
    | cons value values ih =>
      rw [List.map_cons, List.foldl_cons, List.foldl_cons, ← ih, Expr.renamed, comparison_renamed]
  unfold test?
  show (match b.values.map (Expr.renamed f) with | [] => _ | value :: values => _) = _
  cases b.values with
  | nil => rfl
  | cons value values =>
    show some (List.foldl _ _ (values.map (Expr.renamed f))) = some (Expr.renamed f _)
    rw [← hrest, comparison_renamed]
    rfl

end CaseBranch

/-- **Chains of conditions.** -/
theorem Stmt.renamed_caseChain (f : String → String) (subject : String) (branches : List CaseBranch)
    (fallback : List Stmt) : (caseChain subject branches fallback).map (Stmt.renamed f) =
      caseChain (f subject) (branches.map (CaseBranch.renamed f)) (fallback.map (Stmt.renamed f)) := by
  induction branches with
  | nil => rfl
  | cons b branches ih =>
    unfold caseChain at ih ⊢
    rw [List.map_cons, List.foldr_cons, List.foldr_cons, ← ih, b.test?_renamed f]
    cases b.test? subject with
    | none => rfl
    | some test =>
      rw [Option.map_some, List.map_cons, List.map_nil, renamed, listRenamed_eq_map,
        listRenamed_eq_map]
      rfl

/-! ### Numbers -/

/-- **The made-up name with a number** that is higher by `k`. Other texts stay as they are. -/
def renumbered (k : Nat) (text : String) : String :=
  let number := Nat.ofDigitChars 10 (text.toList.drop 3) 0
  if text = internalName number then internalName (number + k) else text

theorem renumbered_internalName (k number : Nat) :
    renumbered k (internalName number) = internalName (number + k) := by
  have hdigits : (internalName number).toList.drop 3 = Nat.toDigits 10 number := by
    rw [internalName, String.toList_append]
    exact String.toList_ofList
  rw [renumbered, hdigits, Nat.ofDigitChars_ten_toDigits]
  exact if_pos rfl

theorem renumbered_zero : renumbered 0 = id := by
  funext text
  unfold renumbered
  dsimp only
  split
  · next h => exact h.symm
  · rfl

end LiquidTemplate
