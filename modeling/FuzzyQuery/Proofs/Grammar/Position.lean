import FuzzyQuery.Proofs.Grammar.Derivation

/-!
# Parsing and positions

The parser looks at the kinds and the values of tokens. Where the tokens stand makes no difference
to what it does: tokens that are moved are read to the same tree, or they are refused with the same
fault at the corresponding token.
-/

namespace FuzzyQuery

def Token.content (t : Token) : TokenKind × Text := (t.kind, t.value)

def KeepsContent (f : Token → Token) : Prop := ∀ t, (f t).content = t.content

theorem KeepsContent.kind {f : Token → Token} (h : KeepsContent f) (t : Token) :
    (f t).kind = t.kind := congrArg Prod.fst (h t)

theorem KeepsContent.value {f : Token → Token} (h : KeepsContent f) (t : Token) :
    (f t).value = t.value := congrArg Prod.snd (h t)

def Token.unplaced (t : Token) : Token := { t with pos := 0 }

theorem keepsContent_unplaced : KeepsContent Token.unplaced := fun _ => rfl

/-- Tokens of the same kinds and values are told apart by their places only. -/
theorem map_unplaced_of_content_eq {ts us : List Token}
    (h : ts.map Token.content = us.map Token.content) :
    ts.map Token.unplaced = us.map Token.unplaced := by
  let place (c : TokenKind × Text) : Token := ⟨c.1, c.2, 0⟩
  have hplaced := congrArg (List.map place) h
  rwa [List.map_map, List.map_map] at hplaced

def Fault.onTokens (f : Token → Token) : Fault → Fault
  | unexpectedToken found => unexpectedToken (found.map f)
  | fault => fault

namespace Parse

def Step.onTokens (f : Token → Token) : Step → Step
  | .read tree style rest => .read tree style (rest.map f)
  | .stopped fault style rest => .stopped (fault.onTokens f) style (rest.map f)

variable {f : Token → Token}

theorem Step.style_onTokens (step : Step) : (step.onTokens f).style = step.style := by
  cases step <;> rfl

theorem Step.onTokens_map (step : Step) (g : Tree → Tree) :
    (step.map g).onTokens f = (step.onTokens f).map g := by
  cases step <;> rfl

theorem Step.onTokens_bind {step : Step} {g : Tree → Option Style → List Token → Step}
    (h : ∀ tree style rest, step = .read tree style rest →
      g tree style (rest.map f) = (g tree style rest).onTokens f) :
    (step.onTokens f).bind g = (step.bind g).onTokens f := by
  cases step with
  | read tree style rest => exact h tree style rest rfl
  | stopped => rfl

theorem unexpected_map (f : Token → Token) (style : Option Style) (tokens : List Token) :
    unexpected style (tokens.map f) = (unexpected style tokens).onTokens f := by
  cases tokens <;> rfl

theorem operandAhead_map (hf : KeepsContent f) (tokens : List Token) :
    operandAhead (tokens.map f) = operandAhead tokens := by
  cases tokens with
  | nil => rfl
  | cons t rest => rw [List.map_cons, operandAhead_cons, operandAhead_cons, hf.kind]

theorem slack_map {bound : Nat} {tokens : List Token} (hf : KeepsContent f)
    (h : Slack bound tokens) : Slack bound (tokens.map f) := by
  cases tokens with
  | nil => exact h
  | cons t rest =>
    intro u hu o ho
    cases hu
    rw [hf.kind] at ho
    exact h t rfl o ho

theorem close_map (hf : KeepsContent f) (tree : Tree) (style : Option Style)
    (tokens : List Token) :
    close tree style (tokens.map f) = (close tree style tokens).onTokens f := by
  cases tokens with
  | nil => rfl
  | cons t rest =>
    rw [List.map_cons, close, close, hf.kind]
    split <;> rfl

mutual

theorem primary_map (hf : KeepsContent f) (style : Option Style) (tokens : List Token) :
    primary style (tokens.map f) = (primary style tokens).onTokens f := by
  cases tokens with
  | nil => rw [List.map_nil, primary]; rfl
  | cons t rest =>
    have hkind := hf.kind t
    cases ht : t.kind with
    | term =>
      rw [List.map_cons, primary_term ht, primary_term (hkind.trans ht), hf.value]
      rfl
    | not =>
      rw [List.map_cons, primary_not ht, primary_not (hkind.trans ht), Step.onTokens_map,
        primary_map hf style rest]
    | opening =>
      rw [List.map_cons, primary_opening ht, primary_opening (hkind.trans ht),
        expression_map hf style rest]
      exact Step.onTokens_bind fun tree style rest _ => close_map hf tree style rest
    | and | or | closing =>
      rw [List.map_cons, primary, primary]
      simp only [hkind, ht]
      exact unexpected_map f style (t :: rest)
termination_by 3 * tokens.length

theorem operand_map (hf : KeepsContent f) (style : Option Style) (tokens : List Token) :
    operand style (tokens.map f) = (operand style tokens).onTokens f := by
  rw [operand_eq, operand_eq, primary_map hf style tokens]
  refine Step.onTokens_bind fun first style' rest hread => ?_
  have hlt := (primary_leavesFewer style tokens).length_lt hread
  have hahead : ((rest.map f).head?.any (·.kind.startsOperand)) =
      rest.head?.any (·.kind.startsOperand) := operandAhead_map hf rest
  rw [hahead]
  split
  · split
    · rw [operand_map hf (some .implicit) rest, Step.onTokens_map]
    · rfl
  · rfl
termination_by 3 * tokens.length + 1

theorem climb_map (hf : KeepsContent f) (left : Tree) (bound : Nat) (style : Option Style)
    (tokens : List Token) :
    climb left bound style (tokens.map f) = (climb left bound style tokens).onTokens f := by
  by_cases hslack : Slack bound tokens
  · rw [climb_of_slack hslack, climb_of_slack (slack_map hf hslack)]
    rfl
  · obtain ⟨t, rest, o, rfl, ho, hb⟩ := exists_operator_of_not_slack hslack
    have ho' : (f t).kind.operator? = some o := by rw [hf.kind, ho]
    have hle : ¬ o.precedence ≤ bound := Nat.not_le.2 hb
    rw [List.map_cons, climb_cons ho, climb_cons ho', if_neg hle, if_neg hle]
    split
    · rw [operand_map hf (some .explicit) rest]
      refine Step.onTokens_bind fun next style₁ more hnext => ?_
      have hlt := (operand_leavesFewer _ _).length_lt hnext
      rw [climb_map hf next o.precedence style₁ more]
      refine Step.onTokens_bind fun right style₂ more' hright => ?_
      have hlt' := (climb_leavesFewer _ _ _ _).length_lt hright
      exact climb_map hf (.op o left right) bound style₂ more'
    · rfl
termination_by 3 * tokens.length
decreasing_by all_goals subst_vars; simp only [List.length_cons]; omega

theorem expression_map (hf : KeepsContent f) (style : Option Style) (tokens : List Token) :
    expression style (tokens.map f) = (expression style tokens).onTokens f := by
  rw [expression_eq, expression_eq, operand_map hf style tokens]
  refine Step.onTokens_bind fun left style' rest hread => ?_
  have hlt := (operand_leavesFewer style tokens).length_lt hread
  exact climb_map hf left 0 style' rest
termination_by 3 * tokens.length + 2

end

/-- Tokens that are moved are read as before. -/
theorem query_map (hf : KeepsContent f) (tokens : List Token) :
    Parse.query (tokens.map f) = (Parse.query tokens).onTokens f := by
  rw [Parse.query, Parse.query, expression_map hf none tokens]
  cases expression none tokens with
  | read tree style rest =>
    cases rest with
    | nil => rfl
    | cons t rest => exact unexpected_map f style (t :: rest)
  | stopped => rfl

end Parse

/-- Two token lists with the same kinds and values are read to the same tree. -/
theorem query_of_content_eq {ts us : List Token} {tree : Tree} {style : Option Style}
    (heq : us.map Token.content = ts.map Token.content)
    (h : Parse.query ts = .read tree style []) : Parse.query us = .read tree style [] := by
  have hmoved := Parse.query_map keepsContent_unplaced us
  rw [map_unplaced_of_content_eq heq, Parse.query_map keepsContent_unplaced ts, h] at hmoved
  cases hus : Parse.query us with
  | read tree' style' rest =>
    rw [hus] at hmoved
    cases rest with
    | nil => cases hmoved; rfl
    | cons => cases hmoved
  | stopped =>
    rw [hus] at hmoved
    cases hmoved

end FuzzyQuery
