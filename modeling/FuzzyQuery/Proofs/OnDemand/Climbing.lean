import FuzzyQuery.Proofs.Grammar.Climbing
import FuzzyQuery.Proofs.OnDemand.Agreement

/-!
# Climbing on demand

The loop over operators, run on a stream from any of its turns on: when it returns it has taken
exactly a chain, it has looked at the token behind the chain and left it, and it has folded the
chain. It returns for no other reason, and after every such chain. How deeply its calls may be
nested makes no difference once it returns.
-/

namespace FuzzyQuery

open Parse

namespace Reading

variable {α β : Type} {x y z : Reading α}

def Refines (x y : Reading α) : Prop := ∀ s ended, x s = some ended → y s = some ended

theorem Refines.refl (x : Reading α) : Refines x x := fun _ _ h => h

theorem Refines.trans (h : Refines x y) (h' : Refines y z) : Refines x z :=
  fun s ended hx => h' s ended (h s ended hx)

theorem Refines.bind {f g : α → Reading β} (h : Refines x y) (hf : ∀ a, Refines (f a) (g a)) :
    Refines (x >>= f) (y >>= g) := by
  intro s ended hbind
  rcases hx : x s with _ | ⟨e | a, s'⟩
  · simp only [Bind.bind, hx] at hbind
    cases hbind
  · rw [bind_of_error hx] at hbind
    rw [bind_of_error (h s _ hx), hbind]
  · rw [bind_of_ok hx] at hbind
    rw [bind_of_ok (h s _ hx)]
    exact hf a s' ended hbind

end Reading

namespace Rule

open Reading

variable {call call' : Rule → Reading Tree}

theorem readPrimary_refines (h : ∀ rule, Refines (call rule) (call' rule)) :
    Refines (readPrimary call) (readPrimary call') := by
  refine (Refines.refl peek).bind fun found => ?_
  cases found with
  | none => exact .refl _
  | some t =>
    dsimp only
    cases t.kind with
    | not => exact (Refines.refl next).bind fun _ => (h primary).bind fun _ => .refl _
    | opening =>
      exact (Refines.refl (expect .opening)).bind fun _ => (h expression).bind fun _ => .refl _
    | term | and | or | closing => exact .refl _

theorem juxtapositionTurn_refines (h : ∀ rule, Refines (call rule) (call' rule)) :
    Refines (juxtapositionTurn call) (juxtapositionTurn call') := by
  refine (Refines.refl peek).bind fun found => ?_
  cases found with
  | none => exact .refl _
  | some t =>
    dsimp only
    split
    · exact (Refines.refl (pin .implicit t)).bind fun _ => (h primary).bind fun _ => .refl _
    · exact .refl _

theorem climbTurn_refines (h : ∀ rule, Refines (call rule) (call' rule)) (left : Tree)
    (bound : Nat) : Refines (climbTurn call left bound) (climbTurn call' left bound) := by
  refine (Refines.refl peek).bind fun found => ?_
  cases found with
  | none => exact .refl _
  | some t =>
    dsimp only
    cases t.kind.operator? with
    | none => exact .refl _
    | some o =>
      dsimp only
      split
      · exact .refl _
      · refine (Refines.refl (pin .explicit t)).bind fun _ => (Refines.refl next).bind fun _ => ?_
        exact (h operand).bind fun x => (h (climb x o.precedence)).bind fun _ => .refl _

theorem body_refines (h : ∀ rule, Refines (call rule) (call' rule)) (rule : Rule) :
    Refines (rule.body call) (rule.body call') := by
  cases rule with
  | primary => exact readPrimary_refines h
  | operand => exact (h primary).bind fun first => h (juxtaposed [] first)
  | juxtaposed earlier last =>
    refine (juxtapositionTurn_refines h).bind fun found => ?_
    cases found with
    | none => exact .refl _
    | some following => exact h (juxtaposed (earlier ++ [last]) following)
  | expression => exact (h operand).bind fun left => h (climb left 0)
  | climb left bound =>
    refine (climbTurn_refines h left bound).bind fun found => ?_
    cases found with
    | none => exact .refl _
    | some folded => exact h (climb folded bound)

theorem within_refines_succ (depth : Nat) (rule : Rule) :
    Refines (within depth rule) (within (depth + 1) rule) := by
  induction depth generalizing rule with
  | zero =>
    intro s ended h
    cases h
  | succ depth ih => exact body_refines ih rule

/-- What a rule comes to stays the same when its calls may be nested more deeply. -/
theorem within_refines {m n : Nat} (h : m ≤ n) (rule : Rule) :
    Refines (within m rule) (within n rule) := by
  induction h with
  | refl => exact .refl _
  | step _ ih => exact ih.trans (within_refines_succ _ rule)

/-- A turn that finds nothing to fold has only looked ahead. -/
theorem ready_of_climbTurn {left : Tree} {bound : Nat} {s s' : Session}
    (h : climbTurn call left bound s = some (.ok none, s')) : Ready s' := by
  obtain ⟨found, s₁, hpeek, hfound⟩ := bind_eq_ok h
  have hready := (ready_of_peek hpeek).1
  cases found with
  | none =>
    cases hfound
    exact hready
  | some t =>
    dsimp only at hfound
    cases ho : t.kind.operator? with
    | none =>
      rw [ho] at hfound
      cases hfound
      exact hready
    | some o =>
      rw [ho] at hfound
      dsimp only at hfound
      split at hfound
      · cases hfound
        exact hready
      · obtain ⟨_, s₂, -, hpinned⟩ := bind_eq_ok hfound
        obtain ⟨_, s₃, -, htaken⟩ := bind_eq_ok hpinned
        obtain ⟨_, s₄, -, hoperand⟩ := bind_eq_ok htaken
        obtain ⟨_, s₅, -, hfolded⟩ := bind_eq_ok hoperand
        cases hfolded

theorem ready_of_climb {depth : Nat} {left tree : Tree} {bound : Nat} {s s' : Session}
    (h : within depth (climb left bound) s = some (.ok tree, s')) : Ready s' := by
  induction depth generalizing left s with
  | zero => cases h
  | succ depth ih =>
    obtain ⟨found, s₁, hturn, hfound⟩ := bind_eq_ok h
    cases found with
    | none =>
      cases hfound
      exact ready_of_climbTurn hturn
    | some folded => exact ih hfound

end Rule

open Rule Reading

/-- The rule returns the tree, if its calls may be nested deeply enough. -/
def Rule.Returns (rule : Rule) (s : Session) (tree : Tree) (s' : Session) : Prop :=
  ∃ depth, within depth rule s = some (.ok tree, s')

variable {left tree : Tree} {bound : Nat} {s s' : Session}

theorem follows_within (rule : Rule) (s : Session) :
    Follows s (rule.step s.style s.stream.upcoming.1) (within (rule.effort s + 1) rule s) :=
  followsBelow_within _ rule s (Nat.lt_succ_self _)

theorem Rule.Returns.within_effort {rule : Rule} (h : rule.Returns s tree s') :
    within (rule.effort s + 1) rule s = some (.ok tree, s') := by
  obtain ⟨depth, hdepth⟩ := h
  obtain ⟨ended, hended⟩ := (follows_within rule s).finishes
  rcases Nat.le_total depth (rule.effort s + 1) with hle | hle
  · exact within_refines hle rule s _ hdepth
  · rw [hended, ← hdepth, within_refines hle rule s _ hended]

theorem Reading.Ready.next_eq {next : Option Token}
    (h : s.stream.peek = (.ok next, s.stream)) : next = s.stream.upcoming.1.head? :=
  (ready_of_peek (ofStream_of_eq h)).2

theorem Rule.Returns.climbed (h : (Rule.climb left bound).Returns s tree s') :
    ∃ used links next, s.stream.HandsOut used s'.stream ∧
      s'.stream.peek = (.ok next, s'.stream) ∧
      Climbed left bound used links next s.style tree s'.style := by
  have hended := h.within_effort
  have hready := ready_of_climb hended
  obtain ⟨taken, stream, hpath, hrest, hends⟩ := follows_within (Rule.climb left bound) s
  rw [hended] at hends
  generalize hstep : (Rule.climb left bound).step s.style s.stream.upcoming.1 = step at hrest hends
  cases hends with
  | returned tree rest s' =>
    obtain rfl : s'.stream.upcoming.1 = rest := hrest
    obtain ⟨used, links, htokens, hclimbed⟩ := climb_eq_read_iff.1 hstep
    obtain rfl : taken = used := by
      rw [hpath.upcoming_eq] at htokens
      exact List.append_cancel_right htokens
    exact ⟨taken, links, _, hpath, hready, hclimbed⟩

theorem returns_of_climbed {used : List Token} {links : List Link} {next : Option Token}
    (hpath : s.stream.HandsOut used s'.stream) (hpeek : s'.stream.peek = (.ok next, s'.stream))
    (h : Climbed left bound used links next s.style tree s'.style) :
    (Rule.climb left bound).Returns s tree s' := by
  rw [Ready.next_eq hpeek] at h
  have htokens : s.stream.upcoming.1 = used ++ s'.stream.upcoming.1 :=
    congrArg Prod.fst hpath.upcoming_eq
  have hstep : (Rule.climb left bound).step s.style s.stream.upcoming.1 =
      .read tree s'.style s'.stream.upcoming.1 := climb_eq_read_iff.2 ⟨used, links, htokens, h⟩
  obtain ⟨taken, stream, hpath', hrest, hends⟩ := follows_within (Rule.climb left bound) s
  rw [hstep] at hrest hends
  have hlength : taken.length = used.length := by
    have htokens' := congrArg Prod.fst hpath'.upcoming_eq
    rw [htokens, hrest] at htokens'
    exact congrArg List.length (List.append_cancel_right htokens').symm
  have hsame : stream.peek = s'.stream.peek := by
    rw [hpath'.peek_eq, hpath.peek_eq, hlength]
  generalize hended : within _ (Rule.climb left bound) s = ended at hends
  generalize hstyle : s'.style = style at hends
  cases hends with
  | returned tree rest s'' =>
    -- Both have looked at the same token behind the chain, so they are the same.
    have hready := ready_of_climb hended
    rw [Ready, hsame, hpeek] at hready
    have hstream : s'.stream = s''.stream := congrArg Prod.snd hready
    obtain rfl : s' = s'' := congr (congrArg Session.mk hstream) hstyle
    exact ⟨_, hended⟩
  | refused tree style rest hrefused =>
    rw [hsame, hpeek] at hrefused
    cases hrefused

theorem returns_climb_iff : (Rule.climb left bound).Returns s tree s' ↔
    ∃ used links next, s.stream.HandsOut used s'.stream ∧
      s'.stream.peek = (.ok next, s'.stream) ∧
      Climbed left bound used links next s.style tree s'.style := by
  constructor
  · exact Returns.climbed
  · rintro ⟨used, links, next, hpath, hpeek, hclimbed⟩
    exact returns_of_climbed hpath hpeek hclimbed

/-- Climbing from any tree, with any bound and from any state of the stream. It returns exactly when
what comes next are operators that bind more tightly than the bound, each with its operand, and
behind them a token that is none of these, or the end of the query. It has taken the tokens of this
chain and no more, it has looked at the token behind them, and it returns the fold from the left of
the chain in which every run of `&` behind a `|` was folded first. The steps on a list of all tokens
come to the same.

With the bound of `|` the chain consists of `&` only and is folded from the left as it stands. With
the bound of `&` no token is taken and the tree stays what it was. -/
theorem climb_folds_tighter_chain (left : Tree) (bound : Nat) :
    (∀ s tree s', (Rule.climb left bound).Returns s tree s' ↔
      ∃ used links next, s.stream.HandsOut used s'.stream ∧
        s'.stream.peek = (.ok next, s'.stream) ∧
        Climbed left bound used links next s.style tree s'.style) ∧
    (∀ style tokens tree style' rest,
      Parse.climb left bound style tokens = .read tree style' rest ↔
        ∃ used links, tokens = used ++ rest ∧
          Climbed left bound used links rest.head? style tree style') ∧
    (∀ s tree s', (Rule.climb left 1).Returns s tree s' →
      ∃ used links, s.stream.HandsOut used s'.stream ∧ Chain 1 used links ∧
        (∀ link ∈ links, link.1 = .and) ∧ tree = foldLeft left links) ∧
    (∀ s tree s', (Rule.climb left 2).Returns s tree s' ↔
      s.stream.HandsOut [] s'.stream ∧ (∃ next, s'.stream.peek = (.ok next, s'.stream)) ∧
        tree = left ∧ s'.style = s.style) := by
  refine ⟨fun s tree s' => returns_climb_iff,
    fun style tokens tree style' rest => climb_eq_read_iff, fun s tree s' h => ?_,
    fun s tree s' => ?_⟩
  · obtain ⟨used, links, next, hpath, -, hclimbed⟩ := h.climbed
    exact ⟨used, links, hpath, hclimbed.chain, hclimbed.foldLeft_eq⟩
  · rw [returns_climb_iff]
    constructor
    · rintro ⟨used, links, next, hpath, hpeek, hclimbed⟩
      obtain ⟨rfl, rfl, htree, hstyle⟩ := climbed_two_iff.1 hclimbed
      exact ⟨hpath, ⟨next, hpeek⟩, htree, hstyle⟩
    · rintro ⟨hpath, ⟨next, hpeek⟩, htree, hstyle⟩
      exact ⟨[], [], next, hpath, hpeek, climbed_two_iff.2 ⟨rfl, rfl, htree, hstyle⟩⟩

/-- A chain with a run of `&` between two `|`, before a parenthesis that closes nothing. -/
theorem climb_folds_tighter_chain_closing :
    let s := Session.ofText "| b & !c & d | e)".toList
    let s' : Session := ⟨⟨⟨"| b & !c & d | e)".toList, []⟩, some ⟨.closing, [')'], 16⟩⟩,
      some .explicit⟩
    let a : Tree := .term ['a']
    let conjunction : Tree := .op .and (.op .and (.term ['b']) (.not (.term ['c']))) (.term ['d'])
    let tree : Tree := .op .or (.op .or a conjunction) (.term ['e'])
    (Rule.climb a 0).Returns s tree s' ∧
      ∃ used links next, s.stream.HandsOut used s'.stream ∧
        s'.stream.peek = (.ok next, s'.stream) ∧
        Climbed a 0 used links next s.style tree s'.style := by
  intro s s' a conjunction tree
  have hreturns : (Rule.climb a 0).Returns s tree s' := ⟨54, by decide +kernel⟩
  exact ⟨hreturns, ((climb_folds_tighter_chain a 0).1 s tree s').1 hreturns⟩

end FuzzyQuery
