import LiquidTemplate.Proofs.Progress.Operations

/-!
# Open tags

A parser keeps two lists for its messages: the tags that are open and the end tags that are looked
for. Every operation leaves both as they were, whether it succeeds or fails. In a whole run each open
tag stands beside end tags one of which is its own, wherever a statement begins.

* `Environment.Operation`: the operations of a parser.
* `Paired`: open tags with their end tags.
* `Environment.watched`: a grammar with an alarm at each statement.
* `followsTags_watched`, `watched_eq`: the alarm never sounds.
* `SyntaxError.Cause.Coherent`: messages about one open statement.
* `open_tags`: all of it.
-/

namespace LiquidTemplate

open LiquidTemplate.Parser LiquidTemplate.Grammar

variable {α : Type} {env : Environment} {g : Grammar} {r : Route} {n : Nat} {tags : List String}
  {ends : List (List TokenRule)}

/-! ### Before and after an operation -/

/-- The state that a run has reached, with a result or with an error. -/
def Parser.final (p : Parser α) (s : ParserState) : ParserState :=
  match p s with
  | .ok _ t => t
  | .error _ t => t

/-- **Operations of a parser**: those that parse, and those that make up a name or fail. -/
inductive Environment.Operation (env : Environment) : {α : Type} → Parser α → Prop where
  | production {α : Type} {p : Parser α} (h : env.Production p) : Operation env p
  | freshName (line : Nat) : Operation env (freshName line)
  | failure {α : Type} (cause : SyntaxError.Cause) (line : Nat) :
      Operation env (failAt cause line : Parser α)
  | unknownTag {α : Type} (tag : String) (line : Nat) :
      Operation env (failUnknownTag tag line : Parser α)
  | unclosed {α : Type} (ends : Option (List TokenRule)) (line : Nat) :
      Operation env (failUnclosed ends line : Parser α)

theorem Route.Arrives.reaches_final {must post : α → Prop} {p : Parser α} {s : ParserState}
    (h : r.Arrives s must post (p s)) : s.Reaches (p.final s) := by
  unfold Parser.final
  cases hp : p s with
  | ok x t =>
    rw [hp] at h
    exact h.1
  | error e t =>
    rw [hp] at h
    exact h.1

/-- **Any operation** leaves open what was open. -/
theorem Environment.Operation.openTags_final (henv : ∀ x ∈ env.extensions, x.Known) {p : Parser α}
    (h : env.Operation p) (s : ParserState) :
    (p.final s).openTags = s.openTags ∧ (p.final s).expectedEnds = s.expectedEnds := by
  cases h with
  | production h =>
    obtain ⟨must, post, harrives⟩ := h.arrives henv s
    exact ⟨harrives.reaches_final.openTags, harrives.reaches_final.expectedEnds⟩
  | freshName | failure | unknownTag | unclosed => exact ⟨rfl, rfl⟩

/-! ### Open tags beside their end tags -/

/-- **Open tags with the end tags that are looked for.** There are as many rules as tags, and each tag
stands beside rules one of which is its own end tag. -/
def Paired (tags : List String) (ends : List (List TokenRule)) : Prop :=
  tags.length = ends.length ∧ ∀ x ∈ tags.zip ends, endTag x.1 ∈ x.2

instance (tags : List String) (ends : List (List TokenRule)) : Decidable (Paired tags ends) :=
  inferInstanceAs (Decidable (_ ∧ _))

theorem paired_nil : Paired [] [] :=
  ⟨rfl, nofun⟩

theorem paired_cons {tag : String} {rules : List TokenRule} :
    Paired (tag :: tags) (rules :: ends) ↔ endTag tag ∈ rules ∧ Paired tags ends := by
  simp only [Paired, List.length_cons, Nat.add_right_cancel_iff, List.zip_cons_cons,
    List.forall_mem_cons, and_left_comm]

/-- **Messages about one open statement.** The innermost open tag is one whose end tag is looked for,
and nothing is looked for if no tag is open. -/
def SyntaxError.Cause.Coherent : Cause → Prop
  | .unknownTag _ misplaced lookingFor innermost =>
    match innermost with
    | none => misplaced = false ∧ lookingFor = []
    | some tag => "end" ++ tag ∈ lookingFor
  | _ => True

theorem SyntaxError.Cause.Ordinary.coherent {cause : Cause} (h : cause.Ordinary) : cause.Coherent := by
  cases cause with
  | unknownTag => exact h.elim
  | _ => trivial

/-- An error about an unknown tag tells what is open at its place. -/
theorem coherent_unknownTag {s : ParserState} {tag : String}
    (h : Paired s.openTags s.expectedEnds) : (s.unknownTag tag).Coherent := by
  obtain ⟨stream, madeUp, tags, ends⟩ := s
  cases ends with
  | nil =>
    obtain rfl := List.length_eq_zero_iff.1 h.1
    exact ⟨rfl, rfl⟩
  | cons rules ends =>
    cases tags with
    | nil => nomatch h.1
    | cons outer tags => exact List.mem_map_of_mem (f := TokenRule.describe) (paired_cons.1 h).1

/-- **The route of a whole run**, which begins with nothing open. -/
def TokenStream.route (stream : TokenStream) : Route where
  tokens := stream.tokens
  name := stream.name
  filename := stream.filename
  lines _ := True
  line_of_beneath _ _ := trivial
  allows := Paired
  causes := SyntaxError.Cause.Coherent
  ordinary := SyntaxError.Cause.Ordinary.coherent

theorem TokenStream.on_route (stream : TokenStream) : stream.route.On { stream } :=
  ⟨List.suffix_refl _, rfl, rfl, paired_nil⟩

theorem TokenStream.nests_route (stream : TokenStream) : stream.route.Nests :=
  ⟨fun h hend => paired_cons.2 ⟨hend, h⟩, coherent_unknownTag⟩

/-! ### Statements with an alarm -/

/-- **A parser with an alarm**, which sounds in its place where the open tags do not stand beside their
end tags. -/
def Parser.watched (alarm p : Parser α) : Parser α := fun s =>
  if Paired s.openTags s.expectedEnds then p s else alarm s

/-- **Bounded grammar with an alarm** at the beginning of each statement. -/
def Grammar.watched (env : Environment) (alarm : Parser Expansion) (bound : Nat) : Grammar :=
  { below env bound with
    statement := guarded bound fun s _ =>
      Parser.watched alarm (parseStatement env (watched env alarm s.weight)) s
    branch line tag := guarded bound fun s _ =>
      parseBranch (watched env alarm s.weight) line tag false s }
termination_by bound

/-- **Grammar of an environment with an alarm** at the beginning of each statement. -/
def Environment.watched (env : Environment) (alarm : Parser Expansion) : Grammar :=
  { env.grammar with
    statement := fun s =>
      Parser.watched alarm (parseStatement env (Grammar.watched env alarm s.weight)) s
    branch line tag := fun s =>
      parseBranch (Grammar.watched env alarm s.weight) line tag false s }

theorem tracks_watched {alarm p p' : Parser α} {must post : α → Prop} (hr : r.allows = Paired)
    (h : Tracks r n p p' must post) : Tracks r n (Parser.watched alarm p) p' must post := by
  intro s hs hw
  have hpaired : Paired s.openTags s.expectedEnds := hr ▸ hs.allowed
  have heq : Parser.watched alarm p s = p s := if_pos hpaired
  obtain ⟨hsame, harrives⟩ := h s hs hw
  exact ⟨heq.trans hsame, heq ▸ harrives⟩

section Watched

variable (henv : ∀ x ∈ env.extensions, x.Known) (hr : r.Nests)
include henv hr

/-- A statement with an alarm is that of the bounded grammar. -/
theorem tracks_watchedStatement (hpaired : r.allows = Paired) (alarm : Parser Expansion)
    (hg : g.FollowsTags r n env.grammar) :
    Tracks r (n + 1) (Parser.watched alarm (parseStatement env g)) (parseStatement env (below env n))
      Moving Anything :=
  (tracks_watched hpaired (tracks_statement hr hg henv)).both
    (tracks_statement hr (followsTags_below henv hr n) henv)

/-- So is a condition. -/
theorem tracks_watchedBranch (hg : g.FollowsTags r n env.grammar) (line : Nat) (tag : String) :
    Tracks (r.inside tag) (n + 1) (parseBranch g line tag false)
      (parseBranch (below env n) line tag false) Moving Anything :=
  (tracks_branch hr hg line tag false).both
    (tracks_branch hr (followsTags_below henv hr n) line tag false)

variable (hpaired : r.allows = Paired) (alarm : Parser Expansion)
include hpaired

/-- **The bounded grammar with an alarm** agrees with the grammar of the environment. -/
theorem followsTags_watched (n : Nat) :
    (Grammar.watched env alarm n).FollowsTags r n env.grammar := by
  induction n using Nat.strongRecOn with
  | _ n ih =>
    have hg := follows_below env n
    rw [Grammar.watched]
    refine { expression := hg.expression, negation := hg.negation, signed := hg.signed,
             group := hg.group, range := ?_, statement := ?_, branch := ?_ }
    · intro r t start stop ht hk hweight
      exact tracks_range (agreesBelow_below env n) (agreesBelow_grammar env n)
        (fun r => (follows_grammar env n).expression r true true) ht hk hweight
    · exact tracks_reference
        (p := fun j => Parser.watched alarm (parseStatement env (Grammar.watched env alarm j)))
        (q := fun j => parseStatement env (below env j))
        fun j hj => tracks_watchedStatement henv hr hpaired alarm (ih j hj)
    · intro line tag
      exact tracks_reference (p := fun j => parseBranch (Grammar.watched env alarm j) line tag false)
        (q := fun j => parseBranch (below env j) line tag false)
        fun j hj => tracks_watchedBranch henv hr (ih j hj) line tag

/-- **The grammar with an alarm** agrees with the grammar of the environment. -/
theorem followsTags_environment (n : Nat) :
    (env.watched alarm).FollowsTags r n env.grammar := by
  have hg := follows_grammar env n
  have hwatched (j : Nat) := followsTags_watched henv hr hpaired alarm j
  refine { expression := hg.expression, negation := hg.negation, signed := hg.signed,
           group := hg.group, range := hg.range, statement := ?_, branch := ?_ }
  · exact tracks_unbounded
      (p := fun j => Parser.watched alarm (parseStatement env (Grammar.watched env alarm j)))
      (q := fun j => parseStatement env (below env j))
      fun j _ => tracks_watchedStatement henv hr hpaired alarm (hwatched j)
  · intro line tag
    exact tracks_unbounded (p := fun j => parseBranch (Grammar.watched env alarm j) line tag false)
      (q := fun j => parseBranch (below env j) line tag false)
      fun j _ => tracks_watchedBranch henv hr (hwatched j) line tag

end Watched

/-! ### Whole runs -/

section Runs

variable (henv : ∀ x ∈ env.extensions, x.Known) (stream : TokenStream)
include henv

/-- **The alarm never sounds.** -/
theorem watched_eq (alarm : Parser Expansion) :
    (env.watched alarm).parseBody none { stream } = env.grammar.parseBody none { stream } :=
  (tracks_parts (followsTags_environment henv stream.nests_route rfl alarm
    ({ stream } : ParserState).weight) [] {} _ stream.on_route (Nat.lt_succ_self _)).same

/-- **Errors about unknown tags** are about one open statement. -/
theorem coherent_of_error {e : SyntaxError} (h : env.parseStream stream = .error e) :
    e.cause.Coherent :=
  (fault_of_parseStream henv stream.nests_route stream.on_route h).causes

end Runs

/-- **Open tags.** Every operation leaves the open tags and the end tags that are looked for as they
were. In a whole run they stand beside each other wherever a statement begins, so that an alarm there
would not be heard, whatever it does, and errors about unknown tags are about one open statement. -/
theorem open_tags (henv : ∀ x ∈ env.extensions, x.Known) :
    (∀ {α : Type} {p : Parser α}, env.Operation p → ∀ s,
      (p.final s).openTags = s.openTags ∧ (p.final s).expectedEnds = s.expectedEnds) ∧
    (∀ stream alarm,
      (env.watched alarm).parseBody none { stream } = env.grammar.parseBody none { stream }) ∧
    ∀ stream e, env.parseStream stream = .error e → e.cause.Coherent :=
  ⟨fun hp s => hp.openTags_final henv s, fun stream alarm => watched_eq henv stream alarm,
    fun stream _ h => coherent_of_error henv stream h⟩

/-- An unknown tag in a branch of a case distinction. -/
theorem open_tags_case :
    let env : Environment := { extensions := [.case, .doExpr, .shout ["shout"]] }
    let stream : TokenStream := .ofTokens [⟨.mark .blockBegin, 1, ⟨0, 2⟩⟩, ⟨.name "case", 1, ⟨2, 6⟩⟩,
      ⟨.name "x", 1, ⟨7, 8⟩⟩, ⟨.mark .blockEnd, 1, ⟨8, 10⟩⟩, ⟨.mark .blockBegin, 1, ⟨10, 12⟩⟩,
      ⟨.name "endif", 1, ⟨12, 17⟩⟩] none none
    let cause := SyntaxError.Cause.unknownTag "endif" false ["when", "else", "endcase"] (some "case")
    (∀ x ∈ env.extensions, x.Known) ∧ ∃ e, env.parseStream stream = .error e ∧ e.cause = cause ∧
      e.cause.Coherent := by
  intro env stream cause
  have herror : env.parseStream stream =
      .error ((SyntaxError.atSpan cause 1 ⟨12, 17⟩).inTemplate none none) := by
    cbv
  exact ⟨known_extensions, _, herror, rfl, (open_tags known_extensions).2.2 stream _ herror⟩

end LiquidTemplate
