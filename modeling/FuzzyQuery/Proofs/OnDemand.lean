import FuzzyQuery.Proofs.Stream.Unread
import FuzzyQuery.Proofs.Session

/-!
# Parsing on demand

The grammar read from a stream that hands out its tokens one at a time, with no token list in
between. Each rule of the grammar is a program that looks ahead, takes tokens and calls other rules;
the rules call one another and themselves, and two of them loop. To run them, the nesting of calls
is limited. What a rule does within its limit takes tokens and nothing else, and a rule that returns
a tree has taken one, wherever it was called.
-/

namespace FuzzyQuery

/-- A program that reads from a session. It is given up, without an answer, when its calls are
nested too deeply. -/
def Reading (α : Type) : Type := Session → Option (Except QueryError α × Session)

namespace Reading

variable {α β : Type}

/-- An error ends the whole program. -/
instance : Monad Reading where
  pure a := fun s => some (.ok a, s)
  bind x f := fun s =>
    match x s with
    | some (.ok a, s') => f a s'
    | some (.error e, s') => some (.error e, s')
    | none => none

variable {x : Reading α} {f : α → Reading β} {s s' : Session}

theorem bind_of_ok {a : α} (h : x s = some (.ok a, s')) : (x >>= f) s = f a s' := by
  simp only [bind, h]

theorem bind_of_error {e : QueryError} (h : x s = some (.error e, s')) :
    (x >>= f) s = some (.error e, s') := by
  simp only [bind, h]

theorem bind_eq_ok {b : β} {s'' : Session} (h : (x >>= f) s = some (.ok b, s'')) :
    ∃ a s', x s = some (.ok a, s') ∧ f a s' = some (.ok b, s'') := by
  rcases hx : x s with _ | ⟨e | a, s'⟩
  · simp only [bind, hx] at h
    cases h
  · rw [bind_of_error hx] at h
    cases h
  · rw [bind_of_ok hx] at h
    exact ⟨a, s', rfl, h⟩

theorem bind_assoc {γ : Type} (x : Reading α) (f : α → Reading β) (g : β → Reading γ) :
    x >>= f >>= g = x >>= fun a => f a >>= g := by
  funext s
  rcases hx : x s with _ | ⟨e | a, s'⟩
  · simp only [bind, hx]
  · rw [bind_of_error hx, bind_of_error (bind_of_error hx)]
  · simp only [bind, hx]

def ofStream (op : TokenStream → Except QueryError α × TokenStream) : Reading α := fun s =>
  some ((op s.stream).1, { s with stream := (op s.stream).2 })

theorem ofStream_of_eq {op : TokenStream → Except QueryError α × TokenStream}
    {answer : Except QueryError α} {stream : TokenStream} (h : op s.stream = (answer, stream)) :
    ofStream op s = some (answer, ⟨stream, s.style⟩) := by
  rw [ofStream, h]

theorem ofStream_eq_ok {op : TokenStream → Except QueryError α × TokenStream} {a : α}
    (h : ofStream op s = some (.ok a, s')) : op s.stream = (.ok a, s'.stream) := by
  obtain ⟨hanswer, hsession⟩ := Prod.ext_iff.1 (Option.some.inj h)
  exact Prod.ext hanswer (congrArg Session.stream hsession)

def peek : Reading (Option Token) := ofStream TokenStream.peek

def next : Reading (Option Token) := ofStream TokenStream.next

def expect (kind : TokenKind) : Reading Token := fun s => some (s.expect kind)

def pin (used : Style) (t : Token) : Reading Unit := fun s =>
  if Parse.permits s.style used then some (.ok (), { s with style := some used })
  else some (.error (.ofSource s.stream.source .mixedStyle t.pos), s)

def unexpected (found : Option Token) : Reading α := fun s =>
  match found with
  | some t => some (.error (.ofSource s.stream.source (.unexpectedToken found) t.pos), s)
  | none => some (.error (s.stream.reader.fail (.unexpectedToken none)), s)

def tokens : Nat → Reading (List Token)
  | 0 => fun _ => none
  | n + 1 => do
    match ← next with
    | none => return []
    | some t => return t :: (← tokens n)

end Reading

/-- What can be called: the rules of the grammar, and the two loops from any of their turns on. -/
inductive Rule where
  | primary
  | operand
  /-- Joins the operands that follow to those read `earlier` and the `last` one. -/
  | juxtaposed (earlier : List Tree) (last : Tree)
  | expression
  /-- Folds the operators that bind more tightly than `bound` into `left`. -/
  | climb (left : Tree) (bound : Nat)

namespace Rule

open Reading

section

variable (call : Rule → Reading Tree)

def readPrimary : Reading Tree := do
  match ← peek with
  | none => unexpected none
  | some t =>
    match t.kind with
    | .not => do
      let _ ← next
      return .not (← call primary)
    | .opening => do
      let _ ← expect .opening
      let tree ← call expression
      let _ ← expect .closing
      return tree
    | .term => do
      let _ ← next
      return .term t.value
    | .and | .or | .closing => unexpected (some t)

/-- One turn of the loop over juxtaposed operands: the operand that follows, if one does. -/
def juxtapositionTurn : Reading (Option Tree) := do
  match ← peek with
  | none => return none
  | some t =>
    if t.kind.startsOperand then
      pin .implicit t
      return some (← call primary)
    else return none

/-- One turn of the loop over operators: the tree with the operator that follows folded in, if it
binds tightly enough. -/
def climbTurn (left : Tree) (bound : Nat) : Reading (Option Tree) := do
  match ← peek with
  | none => return none
  | some t =>
    match t.kind.operator? with
    | none => return none
    | some o =>
      if o.precedence ≤ bound then return none
      else
        pin .explicit t
        let _ ← next
        let right ← call (.climb (← call operand) o.precedence)
        return some (.op o left right)

def body : Rule → Reading Tree
  | primary => readPrimary call
  | operand => do call (.juxtaposed [] (← call primary))
  | juxtaposed earlier last => do
    match ← juxtapositionTurn call with
    | some following => call (.juxtaposed (earlier ++ [last]) following)
    | none => return earlier.foldr (.op .or) last
  | expression => do call (.climb (← call operand) 0)
  | climb left bound => do
    match ← climbTurn call left bound with
    | some folded => call (.climb folded bound)
    | none => return left

end

/-- Runs a rule, with calls and turns of loops nested no more than `depth` deep. -/
def within : (depth : Nat) → Rule → Reading Tree
  | 0, _ => fun _ => none
  | depth + 1, rule => rule.body (within depth)

def finish (tree : Tree) : Reading Tree := do
  match ← peek with
  | some t => unexpected (some t)
  | none => return tree

def parseWithin (depth : Nat) : Reading Tree := fun s =>
  (within depth expression >>= finish) { s with style := none }

def least : Rule → Nat
  | primary | operand | expression => 1
  | juxtaposed _ _ | climb _ _ => 0

end Rule

namespace Reading

variable {α β : Type} {x : Reading α} {f : α → Reading β} {s s' : Session}

/-- Provided that it returns, the reading that started in `s` and ended so has taken tokens, and at
least as many as `least` says of what it returned. -/
def Gains (s : Session) (least : α → Nat) (ended : Option (Except QueryError α × Session)) : Prop :=
  ∀ a s', ended = some (.ok a, s') →
    ∃ taken, s.stream.HandsOut taken s'.stream ∧ least a ≤ taken.length

theorem Gains.bind {k : α → Nat} {m : β → Nat} (hx : Gains s k (x s))
    (hf : ∀ a s', x s = some (.ok a, s') → Gains s' (fun b => m b - k a) (f a s')) :
    Gains s m ((x >>= f) s) := by
  intro b s'' h
  obtain ⟨a, s', ha, hb⟩ := bind_eq_ok h
  obtain ⟨taken, hpath, hk⟩ := hx a s' ha
  obtain ⟨more, hpath', hm⟩ := hf a s' ha b s'' hb
  refine ⟨taken ++ more, hpath.trans hpath', ?_⟩
  rw [List.length_append]
  have hsum : m b ≤ k a + more.length := Nat.sub_le_iff_le_add'.1 hm
  omega

theorem gains_pure {k : α → Nat} {a : α} (h : k a = 0) : Gains s k ((pure a : Reading α) s) := by
  intro b s' hb
  cases hb
  exact ⟨[], .refl _, Nat.le_of_eq h⟩

theorem gains_peek (s : Session) : Gains s (fun _ => 0) (peek s) := by
  intro found s' h
  have hpeek : s.stream.peek.2 = s'.stream := congrArg Prod.snd (ofStream_eq_ok h)
  rw [← hpeek]
  exact ⟨[], .peek _, Nat.le_refl _⟩

theorem gains_next (s : Session) : Gains s (fun found => found.toList.length) (next s) := by
  intro found s' h
  exact ⟨found.toList, .next (ofStream_eq_ok h), Nat.le_refl _⟩

/-- The token that is taken is the one that was looked at. -/
theorem next_of_peek {found : Option Token} (h : peek s = some (.ok found, s')) :
    next s' = some (.ok found, ⟨s.stream.next.2, s'.style⟩) := by
  obtain ⟨hanswer, hnext⟩ := s.stream.next_peek
  have hpeek := ofStream_eq_ok h
  rw [hpeek] at hanswer hnext
  refine ofStream_of_eq ?_
  rw [hnext]
  exact Prod.ext hanswer.symm rfl

theorem gains_expect (kind : TokenKind) (s : Session) :
    Gains s (fun _ => 1) (expect kind s) := by
  intro t s' h
  obtain ⟨u, -, hnext, hexpect⟩ | ⟨e, hexpect⟩ := s.expect_cases kind
  · rw [expect, hexpect] at h
    cases h
    exact ⟨[t], .one (Prod.ext hnext rfl), Nat.le_refl _⟩
  · rw [expect, hexpect] at h
    cases h

theorem gains_pin (used : Style) (t : Token) (s : Session) :
    Gains s (fun _ => 0) (pin used t s) := by
  intro _ s' h
  rw [pin] at h
  split at h
  · cases h
    exact ⟨[], .refl _, Nat.le_refl _⟩
  · cases h

theorem gains_unexpected {k : α → Nat} (found : Option Token) (s : Session) :
    Gains s k ((unexpected found : Reading α) s) := by
  intro a s' h
  rw [unexpected.eq_def] at h
  split at h <;> cases h

end Reading

namespace Rule

open Reading

variable {call : Rule → Reading Tree}

/-- What a rule takes at least, however it is called. -/
def Progresses (call : Rule → Reading Tree) : Prop :=
  ∀ rule s, Gains s (fun _ => rule.least) (call rule s)

theorem gains_readPrimary (h : Progresses call) (s : Session) :
    Gains s (fun _ => 1) (readPrimary call s) := by
  refine (gains_peek s).bind fun found s₁ hpeek => ?_
  cases found with
  | none => exact gains_unexpected _ _
  | some t =>
    dsimp only
    cases t.kind with
    | term =>
      refine (gains_next s₁).bind fun found s₂ hnext => ?_
      cases (next_of_peek hpeek).symm.trans hnext
      exact gains_pure rfl
    | not =>
      refine (gains_next s₁).bind fun _ s₂ _ => ?_
      refine Gains.bind (h primary s₂) fun tree s₃ _ => ?_
      exact gains_pure (Nat.sub_eq_zero_of_le (Nat.sub_le _ _))
    | opening =>
      refine (gains_expect _ s₁).bind fun _ s₂ _ => ?_
      refine Gains.bind (h expression s₂) fun tree s₃ _ => ?_
      exact (gains_expect _ s₃).bind fun _ s₄ _ => gains_pure rfl
    | and | or | closing => exact gains_unexpected _ _

/-- A turn of the loop over operands that goes on has taken a token. -/
theorem gains_juxtapositionTurn (h : Progresses call) (s : Session) :
    Gains s (fun found => found.toList.length) (juxtapositionTurn call s) := by
  refine (gains_peek s).bind fun found s₁ _ => ?_
  cases found with
  | none => exact gains_pure rfl
  | some t =>
    dsimp only
    split
    · refine (gains_pin _ t s₁).bind fun _ s₂ _ => ?_
      exact Gains.bind (h primary s₂) fun tree s₃ _ => gains_pure rfl
    · exact gains_pure rfl

/-- A turn of the loop over operators that goes on has taken a token. -/
theorem gains_climbTurn (h : Progresses call) (left : Tree) (bound : Nat) (s : Session) :
    Gains s (fun found => found.toList.length) (climbTurn call left bound s) := by
  refine (gains_peek s).bind fun found s₁ _ => ?_
  cases found with
  | none => exact gains_pure rfl
  | some t =>
    dsimp only
    cases t.kind.operator? with
    | none => exact gains_pure rfl
    | some o =>
      dsimp only
      split
      · exact gains_pure rfl
      · refine (gains_pin _ t s₁).bind fun _ s₂ _ => ?_
        refine (gains_next s₂).bind fun _ s₃ _ => ?_
        refine Gains.bind (h operand s₃) fun following s₄ _ => ?_
        refine Gains.bind (h (climb following o.precedence) s₄) fun right s₅ _ => gains_pure ?_
        simp only [least, Option.toList_some, List.length_singleton]
        omega

theorem gains_body (h : Progresses call) : Progresses fun rule => rule.body call := by
  intro rule s
  cases rule with
  | primary => exact gains_readPrimary h s
  | operand => exact Gains.bind (h primary s) fun first s₁ _ => h (juxtaposed [] first) s₁
  | juxtaposed earlier last =>
    refine (gains_juxtapositionTurn h s).bind fun found s₁ _ => ?_
    cases found with
    | none => exact gains_pure rfl
    | some following => exact h (juxtaposed (earlier ++ [last]) following) s₁
  | expression => exact Gains.bind (h operand s) fun left s₁ _ => h (climb left 0) s₁
  | climb left bound =>
    refine (gains_climbTurn h left bound s).bind fun found s₁ _ => ?_
    cases found with
    | none => exact gains_pure rfl
    | some folded => exact h (climb folded bound) s₁

/-- However deeply the calls may be nested, a rule that returns has taken tokens. -/
theorem progresses_within (depth : Nat) : Progresses (within depth) := by
  induction depth with
  | zero =>
    intro rule s tree s' h
    cases h
  | succ depth ih => exact gains_body ih

end Rule

end FuzzyQuery
