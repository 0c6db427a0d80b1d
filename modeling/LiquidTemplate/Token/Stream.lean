import LiquidTemplate.SyntaxError
import LiquidTemplate.Token

/-!
# Token streams

A stream delivers the tokens of a list one by one. It ends with the end of the template, and stays
there.

* `TokenStream`: the current token, those after it, and the names of the template.
* `TokenStream.ofTokens`: the stream of a list, which gets an end if it has none.
* `TokenStream.tokens`: what is still to be delivered.
* `next`, `nextIf?`, `expect`: steps.
* `tokens_next`: a step drops exactly the first token, unless it is the last one.
-/

namespace LiquidTemplate

/-- **Token stream.** The last token is always the end of the template. -/
structure TokenStream where
  current : Token
  later : List Token
  name : Option String
  filename : Option String
  closed : ((later.getLast?).getD current).isEnd

namespace TokenStream

/-- The tokens that are not yet consumed. -/
def tokens (s : TokenStream) : List Token :=
  s.current :: s.later

/-- The end of the template after the tokens `ts`: on the line of the last of them, behind it. -/
def endAfter (ts : List Token) : Token :=
  match ts.getLast? with
  | some t => ⟨.mark .endOfTemplate, t.line, .point t.span.hi⟩
  | none => ⟨.mark .endOfTemplate, 1, .point 0⟩

/-- The list with an end of the template behind it, if the last token is none. -/
def close (ts : List Token) : List Token :=
  if (ts.getLast?.map Token.isEnd).getD false then ts else ts ++ [endAfter ts]

theorem isEnd_endAfter (ts : List Token) : (endAfter ts).isEnd := by
  unfold endAfter
  split <;> rfl

/-- A closed list ends with the end of the template. -/
theorem getLast?_close (ts : List Token) : ∃ t, (close ts).getLast? = some t ∧ t.isEnd := by
  unfold close
  split
  · next h =>
    cases hl : ts.getLast? with
    | none => simp [hl] at h
    | some t => exact ⟨t, rfl, by simpa [hl] using h⟩
  · exact ⟨endAfter ts, by simp, isEnd_endAfter ts⟩

/-- **Stream of a list** of tokens. -/
def ofTokens (ts : List Token) (name filename : Option String) : TokenStream :=
  match h : close ts with
  | [] => ⟨endAfter [], [], name, filename, rfl⟩
  | t :: later =>
    ⟨t, later, name, filename, by
      obtain ⟨e, he, hend⟩ := getLast?_close ts
      rw [h, List.getLast?_cons] at he
      obtain rfl := by simpa using he
      exact hend⟩

/-- The token after the current one; the last one is followed by itself. -/
def look (s : TokenStream) : Token :=
  s.later.headD s.current

/-- **Step** to the next token; at the last one the stream stays. -/
def next (s : TokenStream) : TokenStream :=
  match h : s.later with
  | [] => s
  | t :: later =>
    { s with
      current := t
      later := later
      closed := by
        have hc := s.closed
        rw [h, List.getLast?_cons] at hc
        simpa using hc }

/-- Whether the current token is the end of the template. -/
def atEnd (s : TokenStream) : Bool :=
  s.current.isEnd

/-- `n` steps. -/
def skip : Nat → TokenStream → TokenStream
  | 0, s => s
  | n + 1, s => skip n s.next

/-- **Conditional step.** The current token and the stream after it, if it fits the rule. -/
def nextIf? (s : TokenStream) (rule : TokenRule) : Option (Token × TokenStream) :=
  if s.current.fits rule then some (s.current, s.next) else none

/-- The error of a stream whose current token does not fit the rule. -/
def mismatch (s : TokenStream) (rule : TokenRule) : SyntaxError :=
  let t := s.current
  let cause : SyntaxError.Cause :=
    if t.isEnd then .expectedBeforeEnd rule.describe else .expectedToken rule.describe t.describe
  (SyntaxError.atSpan cause t.line t.span).inTemplate s.name s.filename

/-- **Demanded step.** The current token and the stream after it, or an error. -/
def expect (s : TokenStream) (rule : TokenRule) : Except SyntaxError (Token × TokenStream) :=
  match s.nextIf? rule with
  | some r => .ok r
  | none => .error (s.mismatch rule)

/-! ### What steps do to the tokens -/

theorem tokens_ne_nil (s : TokenStream) : s.tokens ≠ [] :=
  List.cons_ne_nil _ _

/-- The stream of a list delivers that list, closed. -/
theorem tokens_ofTokens (ts : List Token) (name filename : Option String) :
    (ofTokens ts name filename).tokens = close ts := by
  unfold ofTokens
  split
  · next h =>
    obtain ⟨e, he, _⟩ := getLast?_close ts
    rw [h] at he
    simp at he
  · next t later h => exact h.symm

theorem name_ofTokens (ts : List Token) (name filename : Option String) :
    (ofTokens ts name filename).name = name := by
  unfold ofTokens
  split <;> rfl

theorem filename_ofTokens (ts : List Token) (name filename : Option String) :
    (ofTokens ts name filename).filename = filename := by
  unfold ofTokens
  split <;> rfl

/-- **A step drops one token**, but never the last. -/
theorem tokens_next (s : TokenStream) :
    s.next.tokens = if s.later = [] then s.tokens else s.later := by
  unfold next
  split
  · next h => simp [h]
  · next t later h => simp [h, tokens]

theorem look_eq_current_next (s : TokenStream) : s.look = s.next.current := by
  unfold next look
  split
  · next h => simp [h]
  · next t later h => simp [h]

theorem length_tokens_next (s : TokenStream) (h : s.later ≠ []) :
    s.next.tokens.length + 1 = s.tokens.length := by
  rw [tokens_next, if_neg h]
  rfl

/-- A current token that is not the end has others behind it. -/
theorem later_ne_nil (s : TokenStream) (h : s.atEnd = false) : s.later ≠ [] := by
  intro hl
  have hc := s.closed
  rw [hl] at hc
  simp only [List.getLast?_nil, Option.getD_none] at hc
  simp [atEnd, hc] at h

/-- **A step from a token that is not the end** leaves fewer tokens. -/
theorem length_tokens_next_lt (s : TokenStream) (h : s.atEnd = false) :
    s.next.tokens.length < s.tokens.length := by
  have := length_tokens_next s (later_ne_nil s h)
  omega

end TokenStream

end LiquidTemplate
