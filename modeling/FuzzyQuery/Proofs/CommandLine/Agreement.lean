import FuzzyQuery.Proofs.Automaton.Completion
import FuzzyQuery.Proofs.CommandLine
import FuzzyQuery.Proofs.Session

/-!
# Where the commands refuse the same query

A query is read in two ways: all of its tokens at once, or one after the other as the parser asks for
them. `Agrees` tells which outcomes of the two can go together. They have the same errors at
characters, unless the parser finds something wrong before it gets there, and then it blames a token.
Each command begins with one of the two readings, and is refused when this fails.
-/

namespace FuzzyQuery

inductive Fault.Worded : Fault → Text → Prop
  | character (c : Char) :
      Worded (.unexpectedCharacter [c]) ("Unexpected character: ".toList ++ Text.literal [c])
  | token (t : Token) : Worded (.unexpectedToken (some t))
      ("Unexpected token: ".toList ++ t.kind.name ++ " (".toList ++ t.value.literal ++ [')'])
  | ended : Worded (.unexpectedToken none) "Unexpected end of input".toList
  | unclosed : Worded (.expectedPunctuation [')']) "Expecting punctuation: \")\"".toList
  | mixed : Worded .mixedStyle
      "Cannot mix implicit operators with explicit '&' or '|' in one query".toList

namespace QueryError

variable {q : Text} {e : QueryError} {u : Token}

/-- The text tells the error and its position, and below it the query with a mark. -/
def Reported (q : Text) (e : QueryError) (out : Text) : Prop :=
  ∃ wording, e.fault.Worded wording ∧
    out = "Query error: ".toList ++ wording ++ " (position ".toList ++ Text.ofInt e.position ++
      [')', '\n'] ++ (Text.display (' ' :: ' ' :: q ++
        '\n' :: List.replicate (e.position + 2).toNat ' ' ++ ['^']) ++ ['\n'])

theorem Blames.syntactic (h : e.Blames q u) : e.fault.stage = some .syntactic := by
  obtain hfault | hfault := h.fault
  · exact congrArg Fault.stage hfault
  · exact congrArg Fault.stage hfault

theorem BlamesEnd.syntactic (h : e.BlamesEnd q) : e.fault.stage = some .syntactic := by
  obtain hfault | hfault := h.fault
  · exact congrArg Fault.stage hfault
  · exact congrArg Fault.stage hfault

theorem Blames.worded (h : e.Blames q u) : e.fault.Worded e.message := by
  rw [message]
  obtain hfault | hfault := h.fault
  · rw [hfault]
    exact .token u
  · rw [hfault]
    exact .mixed

theorem BlamesEnd.worded (h : e.BlamesEnd q) : e.fault.Worded e.message := by
  rw [message]
  obtain hfault | hfault := h.fault
  · rw [hfault]
    exact .ended
  · rw [hfault]
    exact .unclosed

theorem blamesCharacter_of_eq {start tail : Text} {c : Char} (hq : q = start ++ c :: tail)
    (hc : StartsNothing c) :
    (ofSource q (.unexpectedCharacter [c]) start.length).BlamesCharacter q :=
  ⟨c, start.length, rfl, by simp [hq], hc⟩

theorem BlamesCharacter.worded (h : e.BlamesCharacter q) : e.fault.Worded e.message := by
  obtain ⟨c, p, rfl, -, -⟩ := h
  exact .character c

end QueryError

theorem excerpt_of_parse {q : Text} {e : QueryError} (h : parse q = .error e) :
    e.excerpt = some ⟨q, e.position⟩ := by
  have hexcerpt := Session.excerpt_of_outcome ((Session.parse_ofText q).symm.trans h)
  rwa [Reader.source_tokens, Reader.source_ofText] at hexcerpt

/-- An error of a parse blames a token, the end of the query, or a character of it. -/
theorem blames_of_parse {q : Text} {e : QueryError} (h : parse q = .error e) :
    (∃ u, e.Blames q u) ∨ e.BlamesEnd q ∨ e.BlamesCharacter q := by
  cases Automaton.refusal_of_parse h with
  | token htokens _ step => exact Or.inl ⟨_, QueryError.blames_of_step htokens step⟩
  | early _ _ finish => exact Or.inr (Or.inl ⟨rfl, Automaton.State.fault_of_finish finish⟩)
  | character query_eq _ starts =>
    exact Or.inr (Or.inr (QueryError.blamesCharacter_of_eq query_eq starts))

theorem reported_of_parse {q : Text} {e : QueryError} (h : parse q = .error e) :
    e.Reported q e.report := by
  have hworded : e.fault.Worded e.message := by
    obtain ⟨u, hblames⟩ | hblames | hblames := blames_of_parse h
    · exact hblames.worded
    · exact hblames.worded
    · exact hblames.worded
  have hrender : (⟨q, e.position⟩ : Excerpt).render =
      ' ' :: ' ' :: q ++ '\n' :: List.replicate (e.position + 2).toNat ' ' ++ ['^'] := by
    simp [Excerpt.render, Text.spaces]
  have hreport : e.report = "Query error: ".toList ++ e.message ++ " (position ".toList ++
      Text.ofInt e.position ++ [')', '\n'] ++
      ((⟨q, e.position⟩ : Excerpt).render.display ++ ['\n']) := by
    unfold QueryError.report
    rw [excerpt_of_parse h]
  rw [hrender] at hreport
  exact ⟨e.message, hworded, hreport⟩

example : (QueryError.ofSource "a &".toList (.unexpectedToken none) 3).report =
    "Query error: Unexpected end of input (position 3)\n  a &\n     ^\n".toList := by
  decide +kernel

/-- What becomes of a query when its tokens are all read, and what when it is parsed. -/
inductive Agrees (q : Text) : Except QueryError (List Token) → Except QueryError Tree → Prop
  | parsed (tokens : List Token) (tree : Tree) : Agrees q (.ok tokens) (.ok tree)
  | malformed (tokens : List Token) {e : QueryError}
      (syntactic : e.fault.stage = some .syntactic) : Agrees q (.ok tokens) (.error e)
  | character {e : QueryError} (blames : e.BlamesCharacter q) : Agrees q (.error e) (.error e)
  | sooner {e e' : QueryError} {u : Token} (character : e.BlamesCharacter q)
      (blames : e'.Blames q u) (before : e'.position < e.position) :
      Agrees q (.error e) (.error e')

/-- A query that has no tokens has a character with which none starts, and reading stops there. -/
theorem blamesCharacter_of_tokenize {q : Text} {e : QueryError} (h : tokenize q = .error e) :
    e.BlamesCharacter q ∧ e.position = (Reader.ofText q).tokens.2.position := by
  obtain ⟨start, tail, l, rfl, rfl | ⟨-, c, t, rfl, hc⟩, htokens⟩ := exists_layout q
  · rw [tokenize_of_ended htokens] at h
    cases h
  · rw [tokenize_of_refused htokens] at h
    cases h
    rw [htokens]
    exact ⟨QueryError.blamesCharacter_of_eq rfl hc, rfl⟩

namespace Agrees

variable {q : Text} {e : QueryError} {tree : Tree} {lexed : Except QueryError (List Token)}
  {parsed : Except QueryError Tree}

theorem exists_tokens (h : Agrees q lexed (.ok tree)) : ∃ tokens, lexed = .ok tokens := by
  cases h with
  | parsed tokens => exact ⟨tokens, rfl⟩

theorem lexed_of_lexical (h : Agrees q lexed (.error e)) (he : e.fault.stage = some .lexical) :
    lexed = .error e := by
  cases h with
  | malformed _ hsyntactic => cases he.symm.trans hsyntactic
  | character => rfl
  | sooner _ hblames => cases he.symm.trans hblames.syntactic

theorem parsed_of_error (h : Agrees q (.error e) parsed) : e.BlamesCharacter q ∧
    (parsed = .error e ∨ ∃ e' u, parsed = .error e' ∧ e'.Blames q u ∧
      e'.position < e.position ∧ ¬ e'.BlamesEnd q) := by
  cases h with
  | character hcharacter => exact ⟨hcharacter, Or.inl rfl⟩
  | sooner hcharacter hblames hbefore =>
    exact ⟨hcharacter, Or.inr ⟨_, _, rfl, hblames, hbefore, hblames.not_blamesEnd⟩⟩

end Agrees

theorem agrees_tokenize_parse (q : Text) : Agrees q (tokenize q) (parse q) := by
  cases hparse : parse q with
  | ok tree =>
    obtain ⟨tokens, htokens, -⟩ := parse_succeeds_iff.1 ⟨tree, hparse⟩
    rw [htokens]
    exact .parsed tokens tree
  | error e =>
    cases Automaton.refusal_of_parse hparse with
    | @token before rest u σ fault htokens leads step =>
      have hblames := QueryError.blames_of_step htokens step
      cases htokenize : tokenize q with
      | ok tokens => exact .malformed tokens hblames.syntactic
      | error late =>
        obtain ⟨hlate, hplace⟩ := blamesCharacter_of_tokenize htokenize
        refine .sooner hlate hblames ?_
        rw [hplace, hblames.position]
        exact Int.ofNat_lt.2 hblames.lt_stop
    | @early tokens σ fault htokenized leads finish =>
      have hblames : (QueryError.ofSource q fault q.length).BlamesEnd q :=
        ⟨rfl, Automaton.State.fault_of_finish finish⟩
      rw [htokenized]
      exact .malformed tokens hblames.syntactic
    | @character start tail c σ hq hstop hc leads =>
      have htokens : (Reader.ofText q).tokens = ((Reader.ofText q).tokens.1, ⟨start, c :: tail⟩) :=
        Prod.ext rfl hstop
      rw [tokenize_of_refused htokens]
      exact .character (QueryError.blamesCharacter_of_eq hq hc)

namespace Command

def args : Command → List Text
  | test query subjects asJson => matchArgs query subjects asJson
  | parse query asJson =>
    "parse".toList :: ((if asJson then ["--json".toList] else []) ++ ["--".toList, query])
  | tokens query => ["tokens".toList, "--".toList, query]

/-- Every command can be asked for, except that a match needs a subject. -/
theorem asks_args {command : Command} (h : ∀ query asJson, command ≠ .test query [] asJson) :
    Asks command command.args := by
  cases command with
  | test query subjects asJson =>
    have hne : subjects ≠ [] := by
      rintro rfl
      exact h query asJson rfl
    exact asksMatch_matchArgs query hne asJson
  | parse query asJson =>
    cases asJson with
    | true => exact ⟨none, rfl⟩
    | false => exact ⟨none, rfl⟩
  | tokens query => exact ⟨none, rfl⟩

end Command

/-- Reading all the tokens of a query and parsing it agree. A query that is parsed has tokens; a
character that the parser refuses is refused with the same error when the tokens are read; and a
character that is refused when the tokens are read is refused with the same error by the parser,
unless that blames a token before this place.

However the commands are asked for, parsing and matching are refused for the same queries and with
the same report, whenever the tokens are, and for a character with the report that the tokens have.
The report tells what is wrong and where, and shows the query with a mark at this place. -/
theorem readings_agree (q : Text) :
    (∀ tree, parse q = .ok tree → ∃ tokens, tokenize q = .ok tokens) ∧
    (∀ e found, parse q = .error e → e.fault = .unexpectedCharacter found →
      tokenize q = .error e) ∧
    (∀ e, tokenize q = .error e → e.BlamesCharacter q ∧
      (parse q = .error e ∨ ∃ e' u, parse q = .error e' ∧ e'.Blames q u ∧
        e'.position < e.position ∧ ¬ e'.BlamesEnd q)) ∧
    (∀ e, parse q = .error e → e.Reported q e.report) ∧
    ∀ subjects asJson asJson',
      (subjects ≠ [] → ∃ args, Asks (.test q subjects asJson) args) ∧
      (∃ args, Asks (.parse q asJson') args) ∧ (∃ args, Asks (.tokens q) args) ∧
      ∀ args args' args'' environment environment' environment'',
        Asks (.test q subjects asJson) args → Asks (.parse q asJson') args' →
        Asks (.tokens q) args'' →
        let matched := runArgs args environment
        let parsed := runArgs args' environment'
        let lexed := runArgs args'' environment''
        (matched.exit = 2 ↔ parsed.exit = 2) ∧ (parsed.exit = 2 ↔ ∃ e, parse q = .error e) ∧
        (∀ e, parse q = .error e → matched.out = e.report ∧ parsed.out = e.report) ∧
        (lexed.exit = 2 → parsed.exit = 2) ∧
        (∀ e, parse q = .error e → e.fault.stage = some .lexical →
          lexed.exit = 2 ∧ lexed.out = e.report) := by
  have hagrees := agrees_tokenize_parse q
  refine ⟨?_, ?_, ?_, fun e => reported_of_parse, ?_⟩
  · intro tree htree
    rw [htree] at hagrees
    exact hagrees.exists_tokens
  · intro e found herror hfault
    rw [herror] at hagrees
    exact hagrees.lexed_of_lexical (congrArg Fault.stage hfault)
  · intro e herror
    rw [herror] at hagrees
    exact hagrees.parsed_of_error
  · intro subjects asJson asJson'
    refine ⟨fun hne => ⟨_, Command.asks_args ?_⟩, ⟨_, Command.asks_args nofun⟩,
      ⟨_, Command.asks_args nofun⟩, ?_⟩
    · rintro query asJson ⟨⟩
      exact hne rfl
    intro args args' args'' environment environment' environment'' hmatch hparse htokens matched
      parsed lexed
    have hparsed : parsed.exit = 2 ↔ ∃ e, parse q = .error e := hparse.exit_eq_two_iff environment'
    refine ⟨(hmatch.exit_eq_two_iff environment).trans hparsed.symm, hparsed, ?_, ?_, ?_⟩
    · intro e herror
      exact ⟨(hmatch.refused herror environment).2, (hparse.refused herror environment').2⟩
    · intro hlexed
      obtain ⟨e, (herror : tokenize q = .error e)⟩ :=
        (htokens.exit_eq_two_iff environment'').1 hlexed
      rw [herror] at hagrees
      obtain ⟨-, hsame | ⟨e', -, hearlier, -⟩⟩ := hagrees.parsed_of_error
      · exact hparsed.2 ⟨e, hsame⟩
      · exact hparsed.2 ⟨e', hearlier⟩
    · intro e herror hlexical
      rw [herror] at hagrees
      exact htokens.refused (hagrees.lexed_of_lexical hlexical) environment''

end FuzzyQuery
