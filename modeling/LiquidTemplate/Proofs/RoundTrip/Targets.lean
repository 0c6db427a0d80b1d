import LiquidTemplate.Proofs.RoundTrip.Bodies

/-!
# Targets, signatures and imported names

* `withoutLines_setContext` and its like: what does not depend on lines and contexts.
* `reads_target`: what a statement assigns to.
* `reads_bindings`: the names of a scope with their values.
* `reads_signature`: parameters with their defaults.
* `reads_importNames`: imported names up to the context modifier.
-/

namespace LiquidTemplate

open LiquidTemplate.Parser LiquidTemplate.Grammar

variable {env : Environment} {n : Nat} {g : Grammar} {e x : Expr} {c d : Context}
  {a b rest ks : List Token.Kind} {k l : Token.Kind}

/-! ### Contexts -/

namespace Expr

/-- The use of names has nothing to do with lines. -/
theorem withoutLines_setContext (c : Context) (e : Expr) :
    (e.setContext c).withoutLines = e.withoutLines.setContext c := by
  match e with
  | tuple items d l =>
      have hitems : items.map (fun x => (x.setContext c).withoutLines) =
          items.map fun x => x.withoutLines.setContext c :=
        List.map_congr_left fun x hx => withoutLines_setContext c x
      simp only [setContext, withoutLines, setContexts_eq_map, listWithoutLines_eq_map,
        List.map_map]
      exact congrArg (tuple · c 0) hitems
  | const .. | templateData .. | name .. | internalName .. | list .. | dict .. | member ..
  | item .. | slice .. | call .. | filter .. | test .. | conditional .. | and .. | or .. | not ..
  | neg .. | pos .. | binary .. | concat .. | compare .. => rfl
termination_by e
decreasing_by
  have := List.sizeOf_lt_of_mem hx
  simp only [tuple.sizeOf_spec]
  omega

/-- What can be assigned to does not depend on lines. -/
theorem isAssignable_withoutLines (e : Expr) : e.withoutLines.isAssignable = e.isAssignable := by
  match e with
  | tuple items c l =>
      have hitems : items.map (fun x => x.withoutLines.isAssignable) = items.map isAssignable :=
        List.map_congr_left fun x hx => isAssignable_withoutLines x
      have hall := congrArg (List.all · id) hitems
      simp only [List.all_map] at hall
      simp only [isAssignable, withoutLines, areAssignable_eq_all, listWithoutLines_eq_map,
        List.all_map]
      exact hall
  | const .. | templateData .. | name .. | internalName .. | list .. | dict .. | member ..
  | item .. | slice .. | call .. | filter .. | test .. | conditional .. | and .. | or .. | not ..
  | neg .. | pos .. | binary .. | concat .. | compare .. => rfl
termination_by e
decreasing_by
  have := List.sizeOf_lt_of_mem hx
  simp only [tuple.sizeOf_spec]
  omega

namespace Target

/-- A target has its context throughout. -/
theorem setContext_eq (h : Target c e) : e.setContext c = e := by
  induction h with
  | name => rfl
  | @tuple items line hi ih =>
      rw [setContext, setContexts_eq_map, List.map_congr_left ih, List.map_id']

/-- A target with another context. -/
theorem setContext (h : Target c e) (d : Context) : Target d (e.setContext d) := by
  induction h with
  | name hn => exact .name hn
  | tuple hi ih =>
      rw [Expr.setContext, setContexts_eq_map]
      refine .tuple fun x hx => ?_
      obtain ⟨y, hy, rfl⟩ := List.mem_map.1 hx
      exact ih y hy

theorem isAssignable (h : Target c e) : e.isAssignable = true := by
  induction h with
  | @name n line hn =>
      have hn : n ∉ constantNames := fun hc => hn (List.mem_cons_of_mem "not" hc)
      simpa [Expr.isAssignable] using hn
  | tuple hi ih =>
      rw [Expr.isAssignable, areAssignable_eq_all]
      exact List.all_eq_true.2 ih

/-- A target is read before it is assigned to. -/
theorem readable (h : Target .load e) : e.Readable := by
  induction h with
  | name hn => exact .name hn
  | tuple hi ih => exact .tuple ih

/-- The context of a target has no tokens. -/
theorem written_setContext (h : Target c e) (d : Context) (st : Style) :
    (e.setContext d).written st = e.written st := by
  induction h with
  | name => rfl
  | @tuple items line hi ih =>
      have hitems : items.map (fun x => parens ((x.setContext d).written st)) =
          items.map fun x => parens (x.written st) :=
        List.map_congr_left fun x hx => congrArg parens (ih x hx)
      simp only [Expr.setContext, written, setContexts_eq_map, writtenEach_eq_map, List.map_map]
      exact congrArg tupleOf hitems

end Target

end Expr

/-! ### Assignments -/

/-- What can be assigned to is assigned to. -/
theorem reads_assignable (h : e.isAssignable = true) :
    Reads n (requireAssignable e) a a (fun x => x = e) := by
  rw [requireAssignable, if_pos h]
  exact Reads.pure rfl

/-- **A target** in parentheses. -/
theorem reads_target (ht : e.Target c) (ends : List TokenRule)
    (hends : ∀ line span, isTupleEnd ends ⟨.symbol .lParen, line, span⟩ = false)
    (hk : k ≠ .symbol .comma) :
    Reads n (parseTarget (below env n) true ends) (e.enclosed ++ k :: rest) (k :: rest)
      (fun x => x.withoutLines = (e.setContext .store).withoutLines) := by
  have hlegible : Legible env (e.setContext .load) (e.written .full) := by
    rw [← ht.written_setContext .load]
    exact ((ht.setContext .load).readable.found env .full).legible
  have htuple : Reads n (parseTuple (below env n) .primary ends false) (e.enclosed ++ k :: rest)
      (k :: rest) (e.setContext .load).Alike :=
    reads_tuple_one hends hk hlegible.primary
  refine htuple.bind fun x hx => ?_
  have hx := hx.eq
  have hstore : (x.setContext .store).withoutLines = (e.setContext .store).withoutLines := by
    rw [Expr.withoutLines_setContext, hx, ← Expr.withoutLines_setContext,
      Expr.setContext_setContext]
  have hassign : (x.setContext .store).isAssignable = true := by
    rw [← Expr.isAssignable_withoutLines, hstore, Expr.isAssignable_withoutLines]
    exact (ht.setContext .store).isAssignable
  refine (reads_assignable hassign).imp ?_
  intro _ hy
  obtain rfl := hy
  exact hstore

/-- **A name** that is assigned to. -/
theorem reads_targetName {name : String} (hn : name ∉ Expr.constantNames) :
    Reads n parseTargetName (.name name :: a) a (fun x => ∃ line, x = .name name .store line) := by
  refine Reads.demand nofun rfl fun line span => ?_
  have hassign : (Expr.name name .store line).isAssignable = true := by
    simpa [Expr.isAssignable] using hn
  refine (reads_assignable hassign).imp ?_
  intro _ hy
  obtain rfl := hy
  exact ⟨line, rfl⟩

/-- An expression of a statement. -/
theorem reads_operand (he : e.Readable) (hk : k.Stops 0) :
    Reads n (parseExpression (below env n) true true) (e.enclosed ++ k :: rest) (k :: rest)
      e.Alike :=
  (he.found env .full).legible.enclosed 0 (Nat.zero_le _) hk

/-- **Names of a scope** with their values. -/
theorem reads_bindings {items : List (Expr × Expr)} (ht : ∀ x ∈ items, x.1.Target .param)
    (hv : ∀ x ∈ items, x.2.Readable) :
    Reads n (parseBindings (below env n))
      (separated (.symbol .comma) (items.map fun x => bindingKinds x.1.enclosed x.2.enclosed) ++
        .mark .blockEnd :: rest) (.mark .blockEnd :: rest)
      (fun ys => ys.map (fun y => (y.1.withoutLines, y.2.withoutLines)) =
        items.map fun x => (x.1.withoutLines, x.2.withoutLines)) := by
  refine (Leads.items (.symbol .comma) false
    (fun k => k = .symbol .comma ∨ k = .mark .blockEnd) (.inl rfl)
    (fun x => bindingKinds x.1.enclosed x.2.enclosed)
    (fun done (ys : List (Expr × Expr)) =>
      ys.map (fun y => (y.1.withoutLines, y.2.withoutLines)) =
        done.map fun x => (x.1.withoutLines, x.2.withoutLines)) items ?_ rfl
    fun _ => ⟨_, _, rfl, .inr rfl⟩).reads fun ys hys => ?_
  · intro done x more hmore ys hys k rest hk
    have hx : x ∈ items := by simp [hmore]
    have hempty : ys.isEmpty = done.isEmpty := by simpa using congrArg List.isEmpty hys
    have hstops : k.Stops 0 := by rcases hk with rfl | rfl <;> exact Token.Kind.stops rfl 0
    have hitem (first : Bool) : Reads n (do
          parseSeparator first
          let target ← parseTarget (below env n) true []
          let _ ← expectSymbol .assign
          let value ← parseExpression (below env n) true true
          return .inl (ys ++ [(target.setContext .param, value)]) :
            Parser (List (Expr × Expr) ⊕ List (Expr × Expr)))
        ((if first then [.symbol .comma] else []) ++
          (bindingKinds x.1.enclosed x.2.enclosed ++ k :: rest)) (k :: rest)
        (fun r => ∃ zs, r = .inl zs ∧ zs.map (fun y => (y.1.withoutLines, y.2.withoutLines)) =
          (done ++ [x]).map fun x => (x.1.withoutLines, x.2.withoutLines)) := by
      rw [bindingKinds, List.append_assoc, List.cons_append]
      refine (reads_separator first).bind fun _ _ => ?_
      have hcomma : Token.Kind.symbol .assign ≠ .symbol .comma := nofun
      refine (reads_target (ht x hx) [] (fun _ _ => rfl) hcomma).bind fun t htarget => ?_
      refine Reads.demand nofun rfl fun _ _ => ?_
      refine (reads_operand (hv x hx) hstops).bind fun v hvalue => Reads.pure ⟨_, rfl, ?_⟩
      have hparam : (t.setContext .param).withoutLines = x.1.withoutLines := by
        rw [Expr.withoutLines_setContext, htarget, ← Expr.withoutLines_setContext,
          Expr.setContext_setContext, (ht x hx).setContext_eq]
      have hvalue := hvalue.eq
      simp [hys, hparam, hvalue]
    refine Leads.round ?_ (length_behind_append_lt ..)
    rw [parseNextBinding, hempty, Bool.false_or]
    have hitem := hitem (!done.isEmpty)
    cases done with
    | nil =>
        refine Reads.mark .blockEnd ?_
        exact hitem
    | cons y done =>
        refine Reads.mark .blockEnd ?_
        exact hitem
  · refine Reads.stop (Reads.mark .blockEnd ?_)
    exact Reads.pure ⟨ys, rfl, hys⟩

/-! ### Signatures -/

/-- **A parameter** without a default, as long as there was none with one. -/
theorem reads_parameter {sig : Signature} (rest : List Token.Kind) (hp : e.Parameter)
    (hd : sig.defaults = []) (hk : k ≠ .symbol .assign) :
    Reads n (parseParameter g sig) (.name e.nameText :: k :: rest) (k :: rest)
      (fun y => ∃ p, p.withoutLines = e.withoutLines ∧ y = ⟨sig.params ++ [p], []⟩) := by
  obtain ⟨name, line, rfl, hn⟩ := hp
  have hassign : k.fits (.type (.symbol .assign)) = false := by
    cases k <;> simp_all [Token.Kind.fits, Token.Kind.type]
  refine (reads_targetName hn).bind ?_
  intro _ hy
  obtain ⟨line', rfl⟩ := hy
  refine Reads.stays hassign ?_
  rw [hd]
  exact Reads.pure ⟨.name name .param line', rfl, rfl⟩

/-- **A parameter** with its default. -/
theorem reads_parameter_default (sig : Signature) (rest : List Token.Kind) (hp : e.Parameter)
    (hx : x.Readable) (hk : k.Stops 0) :
    Reads n (parseParameter (below env n) sig) (bindingKinds [.name e.nameText] x.enclosed ++
        k :: rest) (k :: rest)
      (fun y => ∃ p v, p.withoutLines = e.withoutLines ∧ v.withoutLines = x.withoutLines ∧
        y = ⟨sig.params ++ [p], sig.defaults ++ [v]⟩) := by
  obtain ⟨name, line, rfl, hn⟩ := hp
  refine (reads_targetName hn).bind ?_
  intro _ hy
  obtain ⟨line', rfl⟩ := hy
  refine Reads.skips nofun rfl ?_
  refine (reads_operand hx hk).bind fun v hv => ?_
  exact Reads.pure ⟨.name name .param line', v, rfl, hv, rfl⟩

/-- The loop over the parameters. -/
abbrev parameterLoop (g : Grammar) : Signature → Parser Signature :=
  repeatFrom (parseNextParameter g)

/-- What has been read of a signature. -/
def SignatureSoFar (params defaults : List Expr) (sig : Signature) : Prop :=
  sig.params.map Expr.withoutLines = params.map Expr.withoutLines ∧
    sig.defaults.map Expr.withoutLines = defaults.map Expr.withoutLines

/-- A parameter is one round of the loop. -/
theorem leads_parameter {sig : Signature} {params : List Expr} {post : Signature → Prop}
    (hsig : sig.params.map Expr.withoutLines = params.map Expr.withoutLines)
    (hl : l ≠ .symbol .rParen)
    (h : Reads n (parseParameter g sig) (l :: (a ++ k :: rest)) (k :: rest) post) :
    Leads n (parameterLoop g sig) (parameterLoop g)
      ((if !params.isEmpty then [.symbol .comma] else []) ++ l :: (a ++ k :: rest)) (k :: rest)
      post := by
  have hempty : sig.params.isEmpty = params.isEmpty := by simpa using congrArg List.isEmpty hsig
  have hopen : (l.type == .symbol .rParen) = false := by
    cases l <;> simp_all [Token.Kind.type]
  have hitem : Reads n (do
        parseSeparator (!params.isEmpty)
        let sig ← parseParameter g sig
        return .inl sig : Parser (Signature ⊕ Signature))
      ((if !params.isEmpty then [.symbol .comma] else []) ++ l :: (a ++ k :: rest)) (k :: rest)
      (fun r => ∃ y, r = .inl y ∧ post y) :=
    (reads_separator _).bind fun _ _ => h.bind fun y hy => Reads.pure ⟨y, rfl, hy⟩
  refine Leads.round ?_ (length_behind_append_lt ..)
  rw [parseNextParameter, hempty]
  cases params with
  | nil =>
      refine Reads.symbol .rParen ?_
      rw [hopen, if_neg Bool.false_ne_true]
      exact hitem
  | cons p params =>
      refine Reads.symbol .rParen ?_
      exact hitem

/-- The loop goes through the parameters without a default. -/
theorem leads_required {required : List Expr} (hr : ∀ e ∈ required, e.Parameter)
    (hb : required ≠ [] → ∃ k rest, b = k :: rest ∧ EndsArgument k) :
    Leads n (parameterLoop g {}) (parameterLoop g)
      (following (.symbol .comma) false (required.map fun p => [.name p.nameText]) ++ b) b
      (SignatureSoFar required []) := by
  refine Leads.items (.symbol .comma) false EndsArgument (.inl rfl)
    (fun p : Expr => [.name p.nameText]) (fun done => SignatureSoFar done []) required ?_
    ⟨rfl, rfl⟩ hb
  intro done p more hmore sig hsig k rest hk
  have hassign : k ≠ .symbol .assign := by
    intro h
    subst h
    exact hk.elim nofun nofun
  have hdefaults : sig.defaults = [] := by simpa using hsig.2
  have hparam := reads_parameter (n := n) (g := g) rest (hr p (by simp [hmore])) hdefaults hassign
  have hlead := leads_parameter (l := .name p.nameText) (a := []) hsig.1 nofun hparam
  rw [Bool.false_or]
  refine hlead.imp fun y hy => ?_
  obtain ⟨q, hq, rfl⟩ := hy
  exact ⟨by simp [hsig.1, hq], rfl⟩

/-- The loop goes through the parameters with defaults. -/
theorem leads_optional {required : List Expr} {optional : List (Expr × Expr)} {sig : Signature}
    (ho : ∀ x ∈ optional, x.1.Parameter ∧ x.2.Readable) (hsig : SignatureSoFar required [] sig)
    (hb : optional ≠ [] → ∃ k rest, b = k :: rest ∧ EndsArgument k) :
    Leads n (parameterLoop (below env n) sig) (parameterLoop (below env n))
      (following (.symbol .comma) (!required.isEmpty)
        (optional.map fun x => bindingKinds [.name x.1.nameText] x.2.enclosed) ++ b) b
      (SignatureSoFar (required ++ optional.map Prod.fst) (optional.map Prod.snd)) := by
  refine Leads.items (.symbol .comma) (!required.isEmpty) EndsArgument (.inl rfl)
    (fun x : Expr × Expr => bindingKinds [.name x.1.nameText] x.2.enclosed)
    (fun done => SignatureSoFar (required ++ done.map Prod.fst) (done.map Prod.snd)) optional ?_
    (by simpa using hsig) hb
  intro done x more hmore sig hsig k rest hk
  obtain ⟨hp, hd⟩ := ho x (by simp [hmore])
  have hparam : Reads n (parseParameter (below env n) sig) _ (k :: rest) _ :=
    reads_parameter_default sig rest hp hd hk.stops
  have hlead := leads_parameter (l := .name x.1.nameText) (a := .symbol .assign :: x.2.enclosed)
    hsig.1 nofun hparam
  have hflag : (!(required ++ done.map Prod.fst).isEmpty) =
      (!required.isEmpty || !done.isEmpty) := by
    cases required <;> cases done <;> rfl
  rw [hflag] at hlead
  refine hlead.imp fun y hy => ?_
  obtain ⟨q, v, hq, hv, rfl⟩ := hy
  exact ⟨by simp [hsig.1, hq], by simp [hsig.2, hv]⟩

/-- **Parameters**: first those without a default, then the others. -/
theorem reads_parameters {required : List Expr} {optional : List (Expr × Expr)}
    (rest : List Token.Kind) (hr : ∀ e ∈ required, e.Parameter)
    (ho : ∀ x ∈ optional, x.1.Parameter ∧ x.2.Readable) :
    Reads n (parseParameters (below env n))
      (separated (.symbol .comma) (required.map (fun p => [.name p.nameText]) ++
        optional.map fun x => bindingKinds [.name x.1.nameText] x.2.enclosed) ++
          .symbol .rParen :: rest) (.symbol .rParen :: rest)
      (SignatureSoFar (required ++ optional.map Prod.fst) (optional.map Prod.snd)) := by
  rw [separated, following_append, List.append_assoc, List.isEmpty_map, Bool.false_or]
  refine (leads_required hr fun hne => ?_).reads fun sig hsig => ?_
  · rw [List.isEmpty_eq_false_iff.2 hne]
    exact ends_following rfl _
  refine (leads_optional ho hsig fun _ => ⟨_, _, rfl, .inr rfl⟩).reads fun sig hsig => ?_
  refine Reads.stop (Reads.symbol .rParen ?_)
  exact Reads.pure ⟨sig, rfl, hsig⟩

/-- **A signature.** -/
theorem reads_signature {params defaults : List Expr} (hp : ∀ e ∈ params, e.Parameter)
    (hd : ∀ e ∈ defaults, e.Readable) (hl : defaults.length ≤ params.length) :
    Reads n (parseSignature (below env n)) (signatureKinds params defaults ++ rest) rest
      (SignatureSoFar params defaults) := by
  have hlen : (params.drop (params.length - defaults.length)).length = defaults.length := by
    rw [List.length_drop]
    omega
  have hsnd : (optionalParams params defaults).map Prod.snd = defaults := by
    rw [optionalParams, List.map_snd_zip]
    omega
  have hparams : requiredParams params defaults ++ (optionalParams params defaults).map Prod.fst =
      params := by
    rw [optionalParams, requiredParams, List.map_fst_zip (by omega), List.take_append_drop]
  have hrequired (e) (he : e ∈ requiredParams params defaults) : e.Parameter :=
    hp e (hparams ▸ List.mem_append_left _ he)
  have hoptional (x) (hx : x ∈ optionalParams params defaults) :
      x.1.Parameter ∧ x.2.Readable :=
    ⟨hp _ (hparams ▸ List.mem_append_right _ (List.mem_map_of_mem hx)),
      hd _ (hsnd ▸ List.mem_map_of_mem hx)⟩
  have hread : Reads n (parseParameters (below env n)) _ (.symbol .rParen :: rest) _ :=
    reads_parameters rest hrequired hoptional
  rw [hparams, hsnd] at hread
  rw [signatureKinds, parens, List.cons_append, List.append_assoc]
  refine Reads.demand (by rintro ⟨⟩) rfl fun _ _ => ?_
  exact hread.bind fun sig hsig => Reads.demand (by rintro ⟨⟩) rfl fun _ _ => Reads.pure hsig

/-! ### Imported names -/

/-- An imported name that can be assigned to, as can its other name. -/
def Importable (x : ImportName) : Prop :=
  x.name ∉ Expr.constantNames ∧ x.name.startsWith "_" = false ∧
    ∀ n ∈ x.localName, n ∉ Expr.constantNames

/-- **The context modifier.** -/
theorem reads_context (withContext : Bool) :
    Reads n parseContext? (contextKinds withContext ++ rest) rest
      (fun c => c = some withContext) := by
  refine Reads.see fun line span => ?_
  refine (reads_look (k := .name _) nofun).bind fun t ht => ?_
  obtain ⟨line', span', rfl⟩ := ht
  have hskip : Reads n (do skip 2; return some withContext : Parser (Option Bool))
      (contextKinds withContext ++ rest) rest (fun c => c = some withContext) :=
    (reads_skip_two (k := .name _) (l := .name _) nofun nofun).bind fun _ _ => Reads.pure rfl
  cases withContext with
  | false => exact hskip
  | true => exact hskip

/-- No context modifier begins with a comma. -/
theorem reads_context_comma :
    Reads n parseContext? (.symbol .comma :: rest) (.symbol .comma :: rest)
      (fun c => c = none) :=
  Reads.see fun _ _ => reads_look_any.bind fun _ _ => Reads.pure rfl

/-- Every context modifier has the word for it. -/
theorem reads_context_none {name : String} (hk : k.fits (.name "context") = false) :
    Reads n parseContext? (.name name :: k :: rest) (.name name :: k :: rest)
      (fun c => c = none) := by
  refine Reads.see fun line span => ?_
  refine (reads_look (k := .name name) nofun).bind fun t ht => ?_
  obtain ⟨line', span', rfl⟩ := ht
  have hword : Token.isName ⟨k, line', span'⟩ "context" = false :=
    (Token.fits_eq ⟨k, line', span'⟩ (.name "context")).trans hk
  rw [hword, Bool.and_false, if_neg Bool.false_ne_true]
  exact Reads.pure rfl

/-- **The other name** of an imported name. -/
theorem reads_alias {other : Option String} (ho : ∀ name ∈ other, name ∉ Expr.constantNames)
    (hk : k.fits (.name "as") = false) :
    Reads n parseAlias? (aliasKinds other ++ k :: rest) (k :: rest) (fun o => o = other) := by
  cases other with
  | none => exact Reads.stays hk (Reads.pure rfl)
  | some name =>
      refine Reads.skips nofun rfl ?_
      refine (reads_targetName (ho name rfl)).bind fun t ht => ?_
      obtain ⟨line, rfl⟩ := ht
      exact Reads.pure rfl

/-- **An imported name.** -/
theorem reads_importName {x : ImportName} (hx : Importable x) (hk : k.fits (.name "as") = false) :
    Reads n parseImportName (x.kinds ++ k :: rest) (k :: rest) (fun y => y = x) := by
  obtain ⟨hname, hprivate, hother⟩ := hx
  refine (reads_targetName hname).bind fun t ht => ?_
  obtain ⟨line, rfl⟩ := ht
  rw [Expr.nameText, hprivate, if_neg Bool.false_ne_true]
  refine (reads_alias hother hk).bind fun o ho => ?_
  subst ho
  exact Reads.pure rfl

/-- **An imported name behind its separator**, and what is done behind it. -/
theorem reads_nextImport {names : List ImportName} {x : ImportName} (hx : Importable x)
    {post : List ImportName ⊕ (List ImportName × Option Bool) → Prop}
    (hk : k.fits (.name "as") = false) (hk' : k.fits (.name "context") = false)
    (h : Reads n (parseImportEnd (names ++ [x])) (k :: rest) b post) :
    Reads n (parseNextImport names)
      ((if !names.isEmpty then [.symbol .comma] else []) ++ (x.kinds ++ k :: rest)) b post := by
  have hnone : Reads n parseContext? (x.kinds ++ k :: rest) (x.kinds ++ k :: rest)
      (fun c => c = none) := by
    rw [ImportName.kinds]
    cases hother : x.localName with
    | none => exact reads_context_none hk'
    | some name => exact reads_context_none rfl
  refine (reads_separator _).bind fun _ _ => Reads.see fun line span => ?_
  refine hnone.bind fun c hc => ?_
  subst hc
  refine (reads_importName hx hk).bind fun y hy => ?_
  subst hy
  exact h

/-- The loop goes through imported names up to a comma. -/
theorem leads_imports {names : List ImportName} (h : ∀ x ∈ names, Importable x)
    (hb : names ≠ [] → ∃ k rest, b = k :: rest ∧ k = .symbol .comma) :
    Leads n parseImportNames (repeatFrom parseNextImport)
      (following (.symbol .comma) false (names.map ImportName.kinds) ++ b) b
      (fun xs => xs = names) := by
  refine Leads.items (.symbol .comma) false (fun k => k = .symbol .comma) rfl ImportName.kinds
    (fun done xs => xs = done) names ?_ rfl hb
  intro done x more hmore xs hxs k rest hk
  subst hxs hk
  have hend : Reads n (parseImportEnd (xs ++ [x])) (.symbol .comma :: rest) (.symbol .comma :: rest)
      (fun r => ∃ ys, r = .inl ys ∧ ys = xs ++ [x]) := by
    refine reads_context_comma.bind fun c hc => ?_
    subst hc
    exact Reads.symbol .comma (Reads.pure ⟨_, rfl, rfl⟩)
  rw [Bool.false_or]
  refine Leads.round (reads_nextImport (h x (by simp [hmore])) rfl rfl hend) ?_
  simp [ImportName.kinds]
  omega

/-- **Imported names** up to the context modifier. -/
theorem reads_importNames {names : List ImportName} (h : ∀ x ∈ names, Importable x)
    (withContext : Bool) :
    Reads n parseImportNames
      (separated (.symbol .comma) (names.map ImportName.kinds) ++ (contextKinds withContext ++ rest))
      rest (fun r => r = (names, some withContext)) := by
  have hkind (word : String) (hword : word ≠ "with" ∧ word ≠ "without") :
      (Token.Kind.name (if withContext then "with" else "without")).fits (.name word) = false := by
    cases withContext <;> simp [Token.Kind.fits, hword.1.symm, hword.2.symm]
  rcases List.eq_nil_or_concat names with rfl | ⟨init, last, rfl⟩
  · refine Reads.stop ?_
    refine (reads_separator false).bind fun _ _ => Reads.see fun line span => ?_
    refine (reads_context withContext).bind fun c hc => ?_
    subst hc
    exact Reads.pure ⟨_, rfl, rfl⟩
  · rw [List.concat_eq_append] at h ⊢
    rw [separated, List.map_append, following_append, List.append_assoc, List.isEmpty_map,
      Bool.false_or]
    have hinit (x) (hx : x ∈ init) : Importable x := h x (List.mem_append_left _ hx)
    refine (leads_imports hinit fun hne => ?_).reads fun xs hxs => ?_
    · rw [List.isEmpty_eq_false_iff.2 hne]
      exact ⟨_, _, rfl, rfl⟩
    subst hxs
    have hend : Reads n (parseImportEnd (xs ++ [last])) (contextKinds withContext ++ rest) rest
        (fun r => ∃ y, r = .inr y ∧ y = (xs ++ [last], some withContext)) := by
      refine (reads_context withContext).bind fun c hc => ?_
      subst hc
      exact Reads.pure ⟨_, rfl, rfl⟩
    have hlast := reads_nextImport (h last (by simp)) (hkind "as" (by decide))
      (hkind "context" (by decide)) hend
    refine Reads.stop ?_
    rw [List.map_singleton, following, following, List.append_nil, List.append_assoc]
    exact hlast

end LiquidTemplate
