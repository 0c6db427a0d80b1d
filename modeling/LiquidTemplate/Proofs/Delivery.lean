import LiquidTemplate.Proofs.Success

/-!
# What a stream delivers

A parser reads its stream by a few operations. Whatever their order, the tokens that they consume are
those of the list behind the stream, from the first one on, and at the end the last one again and
again. An operation that demands a token other than the current one consumes nothing.

* `TokenStream.delivered`: what a list delivers, by the number of tokens before it.
* `TokenStream.passed`: the tokens that some steps go past.
* `TokenStream.Operation`: the operations, and what each of them answers, consumes and leaves.
* `Operation.run_eq`: an operation takes some steps, and consumes what they go past.
* `Operation.runAll_eq`: so does a sequence of operations.
* `delivery`: what a sequence of operations has consumed, and what is ahead of it.
-/

namespace LiquidTemplate

open LiquidTemplate.Parser

namespace TokenStream

variable {ts : List Token} {m n : Nat}

/-! ### Steps -/

theorem close_ne_nil (ts : List Token) : close ts ≠ [] := by
  obtain ⟨e, he, -⟩ := getLast?_close ts
  intro hnil
  rw [hnil] at he
  nomatch he

/-- **What a list delivers** behind `n` tokens: its tokens one by one, closed by the end of the
template, and then the last of them for ever. -/
def delivered (ts : List Token) (n : Nat) : Token :=
  (close ts).getD n ((close ts).getLast (close_ne_nil ts))

/-- **The tokens that steps go past**, `n` of them. -/
def passed : Nat → TokenStream → List Token
  | 0, _ => []
  | n + 1, s => s.current :: passed n s.next

@[simp] theorem length_passed (n : Nat) (s : TokenStream) : (passed n s).length = n := by
  induction n generalizing s with
  | zero => rfl
  | succ n ih => rw [passed, List.length_cons, ih]

theorem skip_add (m n : Nat) (s : TokenStream) : skip (m + n) s = skip n (skip m s) := by
  induction m generalizing s with
  | zero => rw [Nat.zero_add, skip]
  | succ m ih => rw [Nat.succ_add, skip, skip, ih]

theorem passed_add (m n : Nat) (s : TokenStream) :
    passed (m + n) s = passed m s ++ passed n (skip m s) := by
  induction m generalizing s with
  | zero => rw [Nat.zero_add, skip, passed, List.nil_append]
  | succ m ih => rw [Nat.succ_add, passed, passed, skip, ih, List.cons_append]

/-- Steps go past the current tokens before each of them. -/
theorem passed_eq (n : Nat) (s : TokenStream) :
    passed n s = (List.range n).map fun i => (skip i s).current := by
  induction n generalizing s with
  | zero => rfl
  | succ n ih =>
    rw [passed, ih, List.range_succ_eq_map, List.map_cons, List.map_map]
    rfl

/-- **Steps drop tokens**, but never the last. -/
theorem tokens_skip (n : Nat) (s : TokenStream) :
    (skip n s).tokens = s.tokens.drop (min n s.later.length) := by
  induction n generalizing s with
  | zero => rw [skip, Nat.zero_min, List.drop_zero]
  | succ n ih =>
    rw [skip, ih]
    unfold next
    split
    · next hlast => rw [hlast, List.length_nil, Nat.min_zero, Nat.min_zero]
    · next t later hlater =>
      show (t :: later).drop (min n later.length) = (s.current :: s.later).drop _
      rw [hlater, List.length_cons, Nat.add_min_add_right, List.drop_succ_cons]

/-- **The current token behind some steps** is the one at their number, or the last one. -/
theorem current_skip (n : Nat) (s : TokenStream) :
    (skip n s).current = s.tokens.getD n (s.tokens.getLast s.tokens_ne_nil) := by
  induction n generalizing s with
  | zero => rfl
  | succ n ih =>
    rw [skip, ih]
    unfold next
    split
    · next hlast => cases n <;> simp [tokens, hlast]
    · next t later hlater => simp [tokens, hlater]

/-! ### Operations -/

/-- **Operations** of a parser on its stream. -/
inductive Operation where
  | current
  | look
  | next
  | skip (n : Nat)
  | nextIf (rule : TokenRule)
  | skipIf (rule : TokenRule)
  | expect (rule : TokenRule)

/-- What an operation answers. -/
inductive Answer where
  | token (t : Token)
  | flag (b : Bool)
  | nothing
  | fault (e : SyntaxError)

/-- **What comes of an operation**: its answer, the tokens that it has consumed, and the state that it
leaves. -/
structure Outcome where
  answer : Answer
  consumed : List Token
  after : ParserState

/-- What comes of a parser that consumes nothing if it fails. -/
def outcomeOf {α : Type} (p : Parser α) (answer : α → Answer) (consumed : α → List Token)
    (s : ParserState) : Outcome :=
  match p s with
  | .ok x t => ⟨answer x, consumed x, t⟩
  | .error e t => ⟨.fault e, [], t⟩

namespace Operation

/-- **An operation** on the stream of a state. What it returns it has consumed, and what it skips. -/
def run (op : Operation) (s : ParserState) : Outcome :=
  match op with
  | .current => outcomeOf Parser.current .token (fun _ => []) s
  | .look => outcomeOf Parser.look .token (fun _ => []) s
  | .next => outcomeOf Parser.advance .token (fun t => [t]) s
  | .skip n => outcomeOf (Parser.skip n) (fun _ => .nothing) (fun _ => s.stream.passed n) s
  | .nextIf rule =>
    match s.stream.nextIf? rule with
    | some (t, stream) => ⟨.token t, [t], { s with stream }⟩
    | none => ⟨.nothing, [], s⟩
  | .skipIf rule =>
    outcomeOf (Parser.skipIf rule) .flag (fun fits => if fits then [s.stream.current] else []) s
  | .expect rule => outcomeOf (Parser.expect rule) .token (fun t => [t]) s

/-- **A sequence of operations**, failed ones among them: what they have consumed, and the state that
they leave. -/
def runAll : List Operation → ParserState → List Token × ParserState
  | [], s => ([], s)
  | op :: ops, s =>
    let outcome := op.run s
    let (consumed, t) := runAll ops outcome.after
    (outcome.consumed ++ consumed, t)

/-- How many steps an operation takes before a token. -/
def steps (op : Operation) (t : Token) : Nat :=
  match op with
  | .current | .look => 0
  | .next => 1
  | .skip n => n
  | .nextIf rule | .skipIf rule | .expect rule => if t.fits rule then 1 else 0

/-- What an operation has to answer on a stream. -/
def answer (op : Operation) (s : TokenStream) : Answer :=
  match op with
  | .current | .next => .token s.current
  | .look => .token s.next.current
  | .skip _ => .nothing
  | .nextIf rule => if s.current.fits rule then .token s.current else .nothing
  | .skipIf rule => .flag (s.current.fits rule)
  | .expect rule => if s.current.fits rule then .token s.current else .fault (s.mismatch rule)

/-- **An operation takes steps**, and consumes what they go past. -/
theorem run_eq (op : Operation) (s : ParserState) :
    op.run s = ⟨op.answer s.stream, s.stream.passed (op.steps s.stream.current),
      { s with stream := s.stream.skip (op.steps s.stream.current) }⟩ := by
  cases op with
  | current => rfl
  | look =>
    show Outcome.mk (.token s.stream.look) [] s = ⟨.token s.stream.next.current, [], s⟩
    rw [look_eq_current_next]
  | next => rfl
  | skip n => rfl
  | nextIf rule =>
    cases hfits : s.stream.current.fits rule <;>
      simp [run, answer, steps, nextIf?, hfits, passed, TokenStream.skip]
  | skipIf rule =>
    cases hfits : s.stream.current.fits rule <;>
      simp [run, outcomeOf, answer, steps, skipIf_eq, hfits, passed, TokenStream.skip,
        ParserState.stepped]
  | expect rule =>
    cases hfits : s.stream.current.fits rule <;>
      simp [run, outcomeOf, answer, steps, Parser.expect, TokenStream.expect, nextIf?, hfits, passed,
        TokenStream.skip]

/-- **A sequence of operations takes steps**, and consumes what they go past. -/
theorem runAll_eq (ops : List Operation) (s : ParserState) :
    ∃ n, runAll ops s = (s.stream.passed n, { s with stream := s.stream.skip n }) := by
  induction ops generalizing s with
  | nil => exact ⟨0, rfl⟩
  | cons op ops ih =>
    obtain ⟨n, hn⟩ := ih (op.run s).after
    refine ⟨op.steps s.stream.current + n, ?_⟩
    rw [runAll, hn, run_eq, passed_add, skip_add]

/-- **An operation that refuses** the current token leaves everything as it is. -/
theorem run_of_not_fits {rule : TokenRule} {s : ParserState}
    (h : s.stream.current.fits rule = false) :
    run (.nextIf rule) s = ⟨.nothing, [], s⟩ ∧ run (.skipIf rule) s = ⟨.flag false, [], s⟩ ∧
      run (.expect rule) s = ⟨.fault (s.stream.mismatch rule), [], s⟩ := by
  simp [run_eq, answer, steps, h, passed, TokenStream.skip]

end Operation

/-! ### Lists -/

/-- The last token of a closed list is the end of the template. -/
theorem delivered_eq (ts : List Token) :
    ∃ e, (close ts).getLast? = some e ∧ e.isEnd = true ∧
      ∀ n, delivered ts n = (close ts).getD n e := by
  obtain ⟨e, he, hend⟩ := getLast?_close ts
  refine ⟨e, he, hend, fun n => ?_⟩
  rw [delivered, List.getLast_eq_iff_getLast?_eq_some _ |>.2 he]

/-- **The stream of a list** delivers it. -/
theorem current_skip_ofTokens (ts : List Token) (name filename : Option String) (n : Nat) :
    (skip n (ofTokens ts name filename)).current = delivered ts n := by
  rw [current_skip, delivered]
  simp only [tokens_ofTokens]

/-- **The stream delivers every token once**, and the end again and again. Whatever a sequence of
operations is, it has consumed the first tokens that the list delivers; the list is closed by the end
of the template, if it has not ended with one. The place of the stream is in the list, behind the
consumed tokens or at the last one; the current token is the next one that the list delivers, and the
one ahead is the current one behind a step. An operation whose rule the current token does not fit
leaves the state as it is. -/
theorem delivery (ts : List Token) (name filename : Option String) (s : ParserState)
    (hs : s.stream = .ofTokens ts name filename) (ops : List Operation) :
    let list := close ts
    let consumed := (Operation.runAll ops s).1
    let t := (Operation.runAll ops s).2
    let place := min consumed.length (list.length - 1)
    (list = if ts.getLast?.any Token.isEnd then ts else ts ++ [endAfter ts]) ∧
      (∃ e, list.getLast? = some e ∧ e.isEnd = true ∧ ∀ n, delivered ts n = list.getD n e) ∧
      consumed = (List.range consumed.length).map (delivered ts) ∧
      place < list.length ∧ t.stream.tokens = list.drop place ∧
      (Operation.run .current t).answer = .token (delivered ts consumed.length) ∧
      (Operation.run .look t).answer =
        (Operation.run .current (Operation.run .next t).after).answer ∧
      ∀ rule, t.stream.current.fits rule = false →
        Operation.run (.nextIf rule) t = ⟨.nothing, [], t⟩ ∧
          Operation.run (.skipIf rule) t = ⟨.flag false, [], t⟩ ∧
          Operation.run (.expect rule) t = ⟨.fault (t.stream.mismatch rule), [], t⟩ := by
  intro list consumed t place
  -- the number of steps is that of the consumed tokens, so that the list says which ones they are
  obtain ⟨n, hn⟩ := Operation.runAll_eq ops s
  have hconsumed : consumed = s.stream.passed n := congrArg Prod.fst hn
  have ht : t.stream = s.stream.skip n := congrArg (fun r => r.2.stream) hn
  have hcount : consumed.length = n := by rw [hconsumed, length_passed]
  have htokens : s.stream.tokens = list := by rw [hs, tokens_ofTokens]
  have hlater : s.stream.later.length = list.length - 1 := by
    rw [← htokens]
    rfl
  have hcurrent (i : Nat) : (s.stream.skip i).current = delivered ts i := by
    rw [hs, current_skip_ofTokens]
  refine ⟨?_, delivered_eq ts, ?_, ?_, ?_, ?_, ?_, fun rule => Operation.run_of_not_fits⟩
  · show close ts = _
    unfold close
    cases ts.getLast? <;> rfl
  · rw [hcount, hconsumed, passed_eq]
    exact List.map_congr_left fun i _ => hcurrent i
  · have hpos : 0 < list.length := List.length_pos_iff.2 (close_ne_nil ts)
    omega
  · rw [ht, tokens_skip, htokens, hlater, ← hcount]
  · rw [Operation.run_eq, Operation.answer, ht, hcount, hcurrent]
  · rw [Operation.run_eq, Operation.run_eq, Operation.run_eq]
    rfl

/-- A list with the end of the template in the middle, and operations beyond its last token. -/
theorem delivery_inner_end :
    let ts : List Token := [⟨.name "a", 1, ⟨0, 1⟩⟩, ⟨.mark .endOfTemplate, 1, ⟨1, 1⟩⟩,
      ⟨.symbol .comma, 2, ⟨3, 4⟩⟩]
    let e : Token := ⟨.mark .endOfTemplate, 2, ⟨4, 4⟩⟩
    let s : ParserState := { stream := .ofTokens ts none none }
    let comma : TokenRule := .type (.symbol .comma)
    let ops : List Operation :=
      [.nextIf comma, .skipIf (.name "a"), .look, .next, .expect (.name "a"), .expect comma, .skip 2]
    let t := (Operation.runAll ops s).2
    s.stream = .ofTokens ts none none ∧ (Operation.runAll ops s).1 = ts ++ [e, e] ∧
      t.stream.tokens = [e] ∧ t.stream.current.fits comma = false ∧
      Operation.run (.skipIf comma) t = ⟨.flag false, [], t⟩ := by
  intro ts e s comma ops t
  have hs : s.stream = .ofTokens ts none none := rfl
  have hconsumed : (Operation.runAll ops s).1 = ts ++ [e, e] := rfl
  have hrefused : t.stream.current.fits comma = false := rfl
  obtain ⟨-, -, -, -, htokens, -, -, hunchanged⟩ := delivery ts none none s hs ops
  rw [hconsumed] at htokens
  exact ⟨hs, hconsumed, htokens, hrefused, (hunchanged comma hrefused).2.1⟩

end TokenStream

end LiquidTemplate
