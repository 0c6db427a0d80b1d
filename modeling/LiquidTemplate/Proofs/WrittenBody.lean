import LiquidTemplate.Extension.Do
import LiquidTemplate.Grammar.Statement
import LiquidTemplate.Proofs.Written

/-!
# Statements as they are written

A statement is written with its own tag and its end tag. All of its expressions stand in
parentheses, and so do their subexpressions.

* `Expr.Target`, `Expr.FilterChain`: what a statement assigns to, and the filters of a filter block.
* `between`, `inside`: tags, and the body between a tag and its end tag.
* `Stmt.written`: the tokens of a statement.
* `Stmt.Canonical`, `Stmt.Separated`: the statements that the grammar makes from such tokens.
-/

namespace LiquidTemplate

/-! ### Expressions in statements -/

namespace Expr

/-- An expression in a statement. -/
def enclosed (e : Expr) : List Token.Kind :=
  parens (e.written .full)

/-- **Targets** of assignments: names and tuples of targets, all with the same context. -/
inductive Target (context : Context) : Expr → Prop
  | name {n line} (hn : n ∉ reservedNames) : Target context (.name n context line)
  | tuple {items line} (hi : ∀ e ∈ items, Target context e) :
      Target context (.tuple items context line)

/-- **Parameters** are names that can be assigned to. -/
def Parameter (e : Expr) : Prop :=
  ∃ n line, e = .name n .param line ∧ n ∉ constantNames

/-- **Filters of a block**: the first has no input, and each is the input of the next. -/
inductive FilterChain : Expr → Prop
  | first {n args line} (ha : ∀ e ∈ args.values, Readable e) : FilterChain (.filter none n args line)
  | next {node n args line} (hn : FilterChain node) (ha : ∀ e ∈ args.values, Readable e) :
      FilterChain (.filter (some node) n args line)

/-- The filters of a block with pipes between them. -/
def writtenFilters : Expr → List Token.Kind
  | filter none n args _ => nameKinds n ++ writtenArguments .full args
  | filter (some node) n args _ =>
    writtenFilters node ++ .symbol .pipe :: (nameKinds n ++ writtenArguments .full args)
  | _ => []

/-- **Shown** by an output statement: text that is not empty, or an expression. -/
def Shown (e : Expr) : Prop :=
  Readable e ∨ ∃ data line, e = .templateData data line ∧ data.isEmpty = false

/-- The tokens of what is shown. -/
def shown : Expr → List Token.Kind
  | templateData data _ => [.data data]
  | e => .mark .variableBegin :: (e.enclosed ++ [.mark .variableEnd])

end Expr

/-! ### Tags and bodies -/

/-- A tag, or several of them, without the outer delimiters: these are put around it. -/
def between (ks : List Token.Kind) : List Token.Kind :=
  .mark .blockBegin :: (ks ++ [.mark .blockEnd])

/-- **Body** between a tag and the one behind it: the end of the first, and the beginning of the
second up to its name. -/
def inside (body : List Token.Kind) (tag : String) : List Token.Kind :=
  .mark .blockEnd :: (body ++ [.mark .blockBegin, .name tag])

/-- A body with an alternative or without one, up to the end tag. -/
def alternatives (both : Bool) (body otherwise : List Token.Kind) (tag : String) :
    List Token.Kind :=
  if both then inside body "else" ++ inside otherwise tag else inside body tag

/-- A word, if the flag is set. -/
def flagKinds (flag : Bool) (words : List String) : List Token.Kind :=
  if flag then words.map .name else []

/-- The modifier that says whether another template sees the context. -/
def contextKinds (withContext : Bool) : List Token.Kind :=
  [.name (if withContext then "with" else "without"), .name "context"]

/-- A condition behind its keyword, if it is there. -/
def conditionKinds : Option Expr → List Token.Kind
  | none => []
  | some e => .name "if" :: e.enclosed

/-- A name that is assigned a value. -/
def bindingKinds (target value : List Token.Kind) : List Token.Kind :=
  target ++ .symbol .assign :: value

/-- The other name of an imported name, if there is one. -/
def aliasKinds : Option String → List Token.Kind
  | none => []
  | some n => [.name "as", .name n]

/-- An imported name with its other name. -/
def ImportName.kinds (x : ImportName) : List Token.Kind :=
  .name x.name :: aliasKinds x.localName

/-- The parameters that have no default, as there are fewer defaults than parameters. -/
def requiredParams (params defaults : List Expr) : List Expr :=
  params.take (params.length - defaults.length)

/-- The other parameters with their defaults. -/
def optionalParams (params defaults : List Expr) : List (Expr × Expr) :=
  (params.drop (params.length - defaults.length)).zip defaults

/-- **Signature**: parameters, and the last of them with defaults. -/
def signatureKinds (params defaults : List Expr) : List Token.Kind :=
  parens (separated (.symbol .comma)
    ((requiredParams params defaults).map (fun p => [.name p.nameText]) ++
      (optionalParams params defaults).map fun x => bindingKinds [.name x.1.nameText] x.2.enclosed))

namespace Stmt

/-- Whether a statement is an output. -/
def isOutput : Stmt → Bool
  | output .. => true
  | _ => false

mutual

/-- **The tokens of a statement.** An alternative without statements is written if `elses`. -/
def written (elses : Bool) : Stmt → List Token.Kind
  | output nodes _ => nodes.flatMap Expr.shown
  | extendsTemplate template _ => between (.name "extends" :: template.enclosed)
  | forLoop target iter body otherwise test recursive _ =>
    between (.name "for" :: (target.enclosed ++ .name "in" :: (iter.enclosed ++
      (conditionKinds test ++ (flagKinds recursive ["recursive"] ++
        alternatives (elses || !otherwise.isEmpty) (listWritten elses body)
          (listWritten elses otherwise) "endfor")))))
  | ifThen test body otherwise _ =>
    between (.name "if" :: (test.enclosed ++
      alternatives (elses || !otherwise.isEmpty) (listWritten elses body)
        (listWritten elses otherwise) "endif"))
  | breakLoop _ => between [.name "break"]
  | continueLoop _ => between [.name "continue"]
  | withBlock targets values body _ =>
    between (.name "with" :: (separated (.symbol .comma)
      ((targets.zip values).map fun x => bindingKinds x.1.enclosed x.2.enclosed) ++
        inside (listWritten elses body) "endwith"))
  | scope [optionBlock [⟨_, value, _⟩] body _] _ =>
    between (.name "autoescape" :: (value.enclosed ++
      inside (listWritten elses body) "endautoescape"))
  | scope .. | optionBlock .. => []
  | block n isScoped body _ =>
    between (.name "block" :: .name n :: (flagKinds isScoped ["scoped"] ++
      inside (listWritten elses body) "endblock"))
  | includeTemplate template ignoreMissing withContext _ =>
    between (.name "include" :: (template.enclosed ++
      (flagKinds ignoreMissing ["ignore", "missing"] ++ contextKinds withContext)))
  | sectionTemplate template ignoreMissing withContext _ =>
    between (.name "section" :: (template.enclosed ++
      (flagKinds ignoreMissing ["ignore", "missing"] ++ contextKinds withContext)))
  | importTemplate template target withContext _ =>
    between (.name "import" :: (template.enclosed ++
      .name "as" :: .name target :: contextKinds withContext))
  | importNames template names withContext _ =>
    between (.name "from" :: (template.enclosed ++ .name "import" ::
      (separated (.symbol .comma) (names.map ImportName.kinds) ++ contextKinds withContext)))
  | macroBlock n params defaults body _ =>
    between (.name "macro" :: .name n :: (signatureKinds params defaults ++
      inside (listWritten elses body) "endmacro"))
  | callBlock call params defaults body _ =>
    between (.name "call" :: (signatureKinds params defaults ++ (call.enclosed ++
      inside (listWritten elses body) "endcall")))
  | filterBlock filter body _ =>
    between (.name "filter" :: (filter.writtenFilters ++
      inside (listWritten elses body) "endfilter"))
  | assign target value _ =>
    between (.name "set" :: bindingKinds target.enclosed value.enclosed)
  | assignBlock target body _ =>
    between (.name "set" :: (target.enclosed ++ inside (listWritten elses body) "endset"))
  | expr node _ => between (.name "do" :: node.enclosed)

/-- The tokens of a list of statements. -/
def listWritten (elses : Bool) : List Stmt → List Token.Kind
  | [] => []
  | s :: ss => written elses s ++ listWritten elses ss

end

/-! ### What can be written -/

/-- **Separated**: no two outputs stand next to each other. -/
def Separated : List Stmt → Prop
  | s :: t :: ss => (s.isOutput = true → t.isOutput = false) ∧ Separated (t :: ss)
  | _ => True

/-- **Canonical statements**, the ones that the grammar makes. Expressions as statements need their
extension. -/
inductive Canonical (env : Environment) : Stmt → Prop
  | output {nodes line} (hne : nodes ≠ []) (hn : ∀ e ∈ nodes, e.Shown) :
      Canonical env (output nodes line)
  | extendsTemplate {template line} (ht : template.Readable) :
      Canonical env (extendsTemplate template line)
  | forLoop {target iter body otherwise test recursive line} (ht : target.Target .store)
      (hi : iter.Readable) (hc : ∀ e ∈ test, e.Readable) (hb : ∀ s ∈ body, Canonical env s)
      (hsb : Separated body) (ho : ∀ s ∈ otherwise, Canonical env s) (hso : Separated otherwise) :
      Canonical env (forLoop target iter body otherwise test recursive line)
  | ifThen {test body otherwise line} (ht : test.Readable) (hb : ∀ s ∈ body, Canonical env s)
      (hsb : Separated body) (ho : ∀ s ∈ otherwise, Canonical env s) (hso : Separated otherwise) :
      Canonical env (ifThen test body otherwise line)
  | breakLoop {line} : Canonical env (breakLoop line)
  | continueLoop {line} : Canonical env (continueLoop line)
  | withBlock {targets values body line} (ht : ∀ e ∈ targets, e.Target .param)
      (hv : ∀ e ∈ values, e.Readable) (hl : targets.length = values.length)
      (hb : ∀ s ∈ body, Canonical env s) (hsb : Separated body) :
      Canonical env (withBlock targets values body line)
  | autoescape {value body line line' line''} (hv : value.Readable)
      (hb : ∀ s ∈ body, Canonical env s) (hsb : Separated body) :
      Canonical env (scope [optionBlock [⟨"autoescape", value, line⟩] body line'] line'')
  | block {n isScoped body line} (hb : ∀ s ∈ body, Canonical env s) (hsb : Separated body) :
      Canonical env (block n isScoped body line)
  | includeTemplate {template ignoreMissing withContext line} (ht : template.Readable) :
      Canonical env (includeTemplate template ignoreMissing withContext line)
  | sectionTemplate {template ignoreMissing withContext line} (ht : template.Readable) :
      Canonical env (sectionTemplate template ignoreMissing withContext line)
  | importTemplate {template target withContext line} (ht : template.Readable)
      (hn : target ∉ Expr.constantNames) :
      Canonical env (importTemplate template target withContext line)
  | importNames {template names withContext line} (ht : template.Readable)
      (hn : ∀ x ∈ names, x.name ∉ Expr.constantNames ∧ x.name.startsWith "_" = false ∧
        ∀ n ∈ x.localName, n ∉ Expr.constantNames) :
      Canonical env (importNames template names withContext line)
  | macroBlock {n params defaults body line} (hn : n ∉ Expr.constantNames)
      (hp : ∀ e ∈ params, e.Parameter) (hd : ∀ e ∈ defaults, e.Readable)
      (hl : defaults.length ≤ params.length) (hb : ∀ s ∈ body, Canonical env s)
      (hsb : Separated body) : Canonical env (macroBlock n params defaults body line)
  | callBlock {node args l params defaults body line} (hc : (Expr.call node args l).Readable)
      (hp : ∀ e ∈ params, e.Parameter) (hd : ∀ e ∈ defaults, e.Readable)
      (hl : defaults.length ≤ params.length) (hb : ∀ s ∈ body, Canonical env s)
      (hsb : Separated body) : Canonical env (callBlock (.call node args l) params defaults body line)
  | filterBlock {filter body line} (hf : filter.FilterChain) (hb : ∀ s ∈ body, Canonical env s)
      (hsb : Separated body) : Canonical env (filterBlock filter body line)
  | assign {target value line} (ht : target.Target .store) (hv : value.Readable) :
      Canonical env (assign target value line)
  | assignBlock {target body line} (ht : target.Target .store) (hb : ∀ s ∈ body, Canonical env s)
      (hsb : Separated body) : Canonical env (assignBlock target body line)
  | expr {node line} (hn : node.Readable) (he : env.extension? "do" = some .doExpr) :
      Canonical env (expr node line)

end Stmt

end LiquidTemplate
