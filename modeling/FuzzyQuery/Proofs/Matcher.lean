import FuzzyQuery.Matcher.Request
import Mathlib.Data.List.Induction

/-!
# The life of a matcher

A matcher waits until it is first compiled or executed while it holds a query that parses. Up to
then every attempt parses the query that is held at that moment and, when this fails, leaves
everything as it was. The tree of the first attempt that succeeds is kept for good. From then on
nothing is parsed, nothing fails and nothing is logged, whatever queries are set.
-/

namespace FuzzyQuery

namespace Matcher

variable {m : Matcher} {tree : Tree} {e : QueryError}

theorem compile_of_tree (h : m.tree = some tree) : m.compile = ⟨.ok tree, m, []⟩ := by
  simp only [compile, h]

theorem compile_of_parse (h : m.tree = none) (hp : parse m.query = .ok tree) :
    m.compile = ⟨.ok tree, ⟨m.query, some tree⟩, [.compiled m.query tree]⟩ := by
  simp only [compile, h, hp]

theorem compile_of_error (h : m.tree = none) (hp : parse m.query = .error e) :
    m.compile = ⟨.error e, m, [.failed m.query e.fault]⟩ := by
  simp only [compile, h, hp]

/-- To execute a matcher that has a tree evaluates the tree and leaves the matcher as it is. -/
theorem execute_of_tree (h : m.tree = some tree) (subject : Text) (f : Findings) :
    m.execute subject f = ⟨.ok (tree.search subject f), m, []⟩ := by
  simp only [execute, compile_of_tree h, Except.map]

/-- An execution is completed exactly when there is a tree, and then this tree is evaluated. -/
theorem result_execute_eq_ok_iff {subject : Text} {f g : Findings} :
    (m.execute subject f).result = .ok g ↔
      ∃ tree, m.compile.result = .ok tree ∧ tree.search subject f = g := by
  unfold execute
  cases h : m.compile.result with
  | ok tree => simp only [h, Except.map, Except.ok.injEq, exists_eq_left']
  | error e => simp only [h, Except.map, reduceCtorEq, false_and, exists_false]

theorem result_execute_of_error (h : m.compile.result = .error e) (subject : Text)
    (f : Findings) : (m.execute subject f).result = .error e := by
  simp only [execute, h, Except.map]

namespace Request

def attempts : Request → Bool
  | compile | execute _ _ => true
  | setQuery _ | isCompiled | describe => false

def newQuery? : Request → Option Text
  | setQuery query => some query
  | compile | execute _ _ | isCompiled | describe => none

end Request

def heldQuery (q : Text) (past : List Request) : Text :=
  (past.filterMap Request.newQuery?).getLastD q

/-- Each attempt among the requests met a query that does not parse. -/
def Uncompiled (q : Text) (past : List Request) : Prop :=
  ∀ before r, before ++ [r] <+: past → r.attempts = true →
    ∃ e, parse (heldQuery q before) = .error e

/-- The first attempt to meet a query that parses met this one, which has this tree. -/
def CompiledTo (q : Text) (past : List Request) (query : Text) (tree : Tree) : Prop :=
  ∃ before r, before ++ [r] <+: past ∧ r.attempts = true ∧ Uncompiled q before ∧
    heldQuery q before = query ∧ parse query = .ok tree

theorem heldQuery_concat (q : Text) (past : List Request) (r : Request) :
    heldQuery q (past ++ [r]) = r.newQuery?.getD (heldQuery q past) := by
  unfold heldQuery
  rw [List.filterMap_append]
  cases h : r.newQuery? with
  | none => simp only [List.filterMap_cons, h, List.filterMap_nil, List.append_nil, Option.getD]
  | some query => simp only [List.filterMap_cons, h, List.filterMap_nil, List.getLastD_concat,
      Option.getD]

theorem Uncompiled.concat {q : Text} {past : List Request} {r : Request} (h : Uncompiled q past)
    (hr : r.attempts = true → ∃ e, parse (heldQuery q past) = .error e) :
    Uncompiled q (past ++ [r]) := by
  intro before s hs hattempts
  rcases List.prefix_concat_iff.1 hs with heq | hprefix
  · obtain ⟨rfl, hrs⟩ := List.append_inj' heq rfl
    cases hrs
    exact hr hattempts
  · exact h before s hprefix hattempts

theorem CompiledTo.append {q query : Text} {past : List Request}
    (h : CompiledTo q past query tree) (more : List Request) :
    CompiledTo q (past ++ more) query tree := by
  obtain ⟨before, r, hprefix, hr⟩ := h
  exact ⟨before, r, hprefix.trans (List.prefix_append past more), hr⟩

namespace Desk

variable {d : Desk}

theorem after_append (d : Desk) (past more : List Request) :
    d.after (past ++ more) = (d.after past).after more := List.foldl_append

theorem log_append (d : Desk) (past more : List Request) :
    d.log (past ++ more) = d.log past ++ (d.after past).log more := by
  induction past generalizing d with
  | nil => rfl
  | cons r past ih =>
    rw [List.cons_append, log, log, ih, List.append_assoc]
    rfl

/-- The tree has been evaluated from the findings given. The hits that this leaves and its verdict
are the answer, and they stand under the name. Nothing else has changed, but the tree is kept. -/
structure Executes (d : Desk) (tree : Tree) (events : List Event) (subject name : Text)
    (given : Findings) (reply : Reply) : Prop where
  answer : reply.answer = .ok (.findings
    ⟨(tree.evaluate subject given).1, (tree.evaluate subject given).2.hits⟩)
  logged : reply.events = events
  matcher : reply.desk.matcher = ⟨d.matcher.query, some tree⟩
  stored : reply.desk.findings name =
    ⟨(tree.evaluate subject given).1, (tree.evaluate subject given).2.hits⟩
  others : ∀ other, other ≠ name → reply.desk.findings other = d.findings other

/-- Every attempt succeeds with this tree and keeps it. To execute is to evaluate the tree, from new
findings or from those that have the name. -/
structure Serves (d : Desk) (tree : Tree) (events : List Event) : Prop where
  compile : d.ask .compile =
    ⟨.ok (.tree tree), events, ⟨⟨d.matcher.query, some tree⟩, d.findings⟩⟩
  fresh (subject name : Text) :
    d.Executes tree events subject name ⟨false, []⟩ (d.ask (.execute subject (.fresh name)))
  held (subject name : Text) :
    d.Executes tree events subject name (d.findings name) (d.ask (.execute subject (.held name)))

structure Refuses (d : Desk) (e : QueryError) : Prop where
  compile : d.ask .compile = ⟨.error e, [.failed d.matcher.query e.fault], d⟩
  execute (subject : Text) (target : Target) :
    d.ask (.execute subject target) = ⟨.error e, [.failed d.matcher.query e.fault], d⟩

theorem serves_of_compile {events : List Event}
    (h : d.matcher.compile = ⟨.ok tree, ⟨d.matcher.query, some tree⟩, events⟩) :
    d.Serves tree events := by
  have hask (subject : Text) (target : Target) : d.ask (.execute subject target) =
      ⟨.ok (.findings (tree.search subject (d.supplied target))), events,
        (⟨⟨d.matcher.query, some tree⟩, d.findings⟩ : Desk).store
          (tree.search subject (d.supplied target)) target⟩ := by
    simp only [ask, execute, h]
    rfl
  refine ⟨?_, fun subject name => ?_, fun subject name => ?_⟩
  · simp only [ask, h]
    rfl
  · rw [hask]
    exact ⟨rfl, rfl, rfl, Function.update_self .., fun _ hne => Function.update_of_ne hne ..⟩
  · rw [hask]
    exact ⟨rfl, rfl, rfl, Function.update_self .., fun _ hne => Function.update_of_ne hne ..⟩

theorem refuses_of_compile
    (h : d.matcher.compile = ⟨.error e, d.matcher, [.failed d.matcher.query e.fault]⟩) :
    d.Refuses e := by
  refine ⟨?_, fun subject target => ?_⟩
  · simp only [ask, h]
    rfl
  · simp only [ask, execute, h]
    rfl

theorem serves_of_tree (h : d.matcher.tree = some tree) : d.Serves tree [] := by
  apply serves_of_compile
  rw [compile_of_tree h, ← h]

/-- Without a tree an attempt compiles the query that is held, or is refused with its error. -/
theorem serves_or_refuses (h : d.matcher.tree = none) :
    (∃ tree, parse d.matcher.query = .ok tree ∧
      d.Serves tree [.compiled d.matcher.query tree]) ∨
    ∃ e, parse d.matcher.query = .error e ∧ d.Refuses e := by
  cases hp : parse d.matcher.query with
  | ok tree => exact Or.inl ⟨tree, rfl, serves_of_compile (compile_of_parse h hp)⟩
  | error e => exact Or.inr ⟨e, rfl, refuses_of_compile (compile_of_error h hp)⟩

theorem Serves.ask {events : List Event} (h : d.Serves tree events) {r : Request}
    (hr : r.attempts = true) :
    (d.ask r).events = events ∧ (d.ask r).desk.matcher = ⟨d.matcher.query, some tree⟩ := by
  cases r with
  | compile =>
    rw [h.compile]
    exact ⟨rfl, rfl⟩
  | execute subject target =>
    cases target with
    | fresh name => exact ⟨(h.fresh subject name).logged, (h.fresh subject name).matcher⟩
    | held name => exact ⟨(h.held subject name).logged, (h.held subject name).matcher⟩
  | setQuery | isCompiled | describe => cases hr

theorem Refuses.ask (h : d.Refuses e) {r : Request} (hr : r.attempts = true) :
    d.ask r = ⟨.error e, [.failed d.matcher.query e.fault], d⟩ := by
  cases r with
  | compile => exact h.compile
  | execute subject target => exact h.execute subject target
  | setQuery | isCompiled | describe => cases hr

/-- A request that is no attempt sets the query at most. -/
theorem ask_of_not_attempts (d : Desk) {r : Request} (hr : r.attempts = false) :
    (d.ask r).events = [] ∧ (d.ask r).desk =
      { d with matcher := ⟨r.newQuery?.getD d.matcher.query, d.matcher.tree⟩ } := by
  cases r with
  | setQuery | isCompiled | describe => exact ⟨rfl, rfl⟩
  | compile | execute => cases hr

theorem newQuery?_of_attempts {r : Request} (hr : r.attempts = true) : r.newQuery? = none := by
  cases r with
  | compile | execute => rfl
  | setQuery | isCompiled | describe => cases hr

/-- One request to a matcher that has a tree. -/
theorem ask_of_tree (h : d.matcher.tree = some tree) (r : Request) :
    (d.ask r).events = [] ∧
      (d.ask r).desk.matcher = ⟨r.newQuery?.getD d.matcher.query, some tree⟩ := by
  cases hr : r.attempts with
  | true =>
    rw [newQuery?_of_attempts hr]
    exact (serves_of_tree h).ask hr
  | false =>
    obtain ⟨hevents, hdesk⟩ := d.ask_of_not_attempts hr
    rw [hdesk, h]
    exact ⟨hevents, rfl⟩

theorem query_ask (d : Desk) (r : Request) :
    (d.ask r).desk.matcher.query = r.newQuery?.getD d.matcher.query := by
  cases htree : d.matcher.tree with
  | some tree => rw [(ask_of_tree htree r).2]
  | none =>
    cases hr : r.attempts with
    | false => rw [(d.ask_of_not_attempts hr).2]
    | true =>
      rw [newQuery?_of_attempts hr]
      rcases serves_or_refuses htree with ⟨tree, -, hserves⟩ | ⟨e, -, hrefuses⟩
      · rw [(hserves.ask hr).2]
        rfl
      · rw [hrefuses.ask hr]
        rfl

/-- The tree is there, whatever is asked, and nothing is logged. -/
def Settled (d : Desk) (tree : Tree) : Prop :=
  ∀ more, (d.after more).matcher.tree = some tree ∧ (d.after more).Serves tree [] ∧
    d.log more = []

theorem settled_of_tree (h : d.matcher.tree = some tree) : d.Settled tree := by
  intro more
  induction more generalizing d with
  | nil => exact ⟨h, serves_of_tree h, rfl⟩
  | cons r more ih =>
    obtain ⟨hevents, hmatcher⟩ := ask_of_tree h r
    obtain ⟨htree, hserves, hlog⟩ := ih (congrArg Matcher.tree hmatcher)
    refine ⟨htree, hserves, ?_⟩
    rw [log, hevents, hlog]
    rfl

/-- There is no tree. The next attempt compiles the query that is held, or it fails, and then it
fails again until a query is set. -/
def Waits (d : Desk) : Prop :=
  d.matcher.tree = none ∧
  ((∃ tree, parse d.matcher.query = .ok tree ∧
      d.Serves tree [.compiled d.matcher.query tree]) ∨
    ∃ e, parse d.matcher.query = .error e ∧ d.Refuses e ∧
      ∀ more, (∀ r ∈ more, r.newQuery? = none) → d.after more = d)

/-- Requests that are refused and requests that set no query leave everything as it is. -/
theorem Refuses.after (h : d.Refuses e) {more : List Request}
    (hmore : ∀ r ∈ more, r.newQuery? = none) : d.after more = d := by
  induction more with
  | nil => rfl
  | cons r more ih =>
    obtain ⟨hr, hmore⟩ := List.forall_mem_cons.1 hmore
    have hask : (d.ask r).desk = d := by
      cases hattempts : r.attempts with
      | true => rw [h.ask hattempts]
      | false => rw [(d.ask_of_not_attempts hattempts).2, hr]; rfl
    have hcons : d.after (r :: more) = (d.ask r).desk.after more := rfl
    rw [hcons, hask, ih hmore]

theorem waits_of_tree_none (h : d.matcher.tree = none) : d.Waits := by
  refine ⟨h, ?_⟩
  rcases serves_or_refuses h with hserves | ⟨e, he, hrefuses⟩
  · exact Or.inl hserves
  · exact Or.inr ⟨e, he, hrefuses, fun more => hrefuses.after⟩

end Desk

def Failure : Event → Prop
  | .failed _ _ => True
  | .compiled _ _ => False

/-- What has happened up to now, told by the requests alone: either no attempt could compile its
query, and failures are all that was logged, or one could, and what was logged ends with it. -/
inductive Stage (q : Text) (past : List Request) : Option Tree → List Event → Prop
  | waiting {log : List Event} (h : Uncompiled q past) (failures : ∀ event ∈ log, Failure event) :
      Stage q past none log
  | compiled {query : Text} {tree : Tree} {log : List Event} (h : CompiledTo q past query tree)
      (failures : ∀ event ∈ log, Failure event) :
      Stage q past (some tree) (log ++ [.compiled query tree])

/-- One request, after which what has happened includes it. -/
theorem Stage.ask {q : Text} {past : List Request} {d : Desk} {log : List Event}
    (h : Stage q past d.matcher.tree log) (hq : d.matcher.query = heldQuery q past)
    (r : Request) :
    Stage q (past ++ [r]) (d.ask r).desk.matcher.tree (log ++ (d.ask r).events) := by
  generalize htree : d.matcher.tree = found at h
  cases h with
  | compiled hcompiled failures =>
    obtain ⟨hevents, hmatcher⟩ := Desk.ask_of_tree htree r
    rw [hevents, hmatcher, List.append_nil]
    exact .compiled (hcompiled.append [r]) failures
  | waiting huncompiled failures =>
    cases hr : r.attempts with
    | false =>
      obtain ⟨hevents, hdesk⟩ := d.ask_of_not_attempts hr
      rw [hevents, hdesk, htree, List.append_nil]
      exact .waiting (huncompiled.concat fun h => by rw [hr] at h; cases h) failures
    | true =>
      rcases Desk.serves_or_refuses htree with ⟨tree, hp, hserves⟩ | ⟨e, hp, hrefuses⟩
      · obtain ⟨hevents, hmatcher⟩ := hserves.ask hr
        rw [hevents, hmatcher]
        exact .compiled ⟨past, r, List.prefix_rfl, hr, huncompiled, hq.symm, hp⟩ failures
      · rw [hrefuses.ask hr, htree]
        rw [hq] at hp
        refine .waiting (huncompiled.concat fun _ => ⟨e, hp⟩) fun event hmem => ?_
        rcases List.mem_append.1 hmem with hold | hnew
        · exact failures event hold
        · rw [List.mem_singleton.1 hnew]
          trivial

/-- A whole run of requests. The induction is on the last request. -/
theorem stage_after (q : Text) (findings : Text → Findings) (past : List Request) :
    let start : Desk := ⟨.ofText q, findings⟩
    (start.after past).matcher.query = heldQuery q past ∧
      Stage q past (start.after past).matcher.tree (start.log past) := by
  intro start
  induction past using List.reverseRecOn with
  | nil =>
    refine ⟨rfl, .waiting (fun before r hprefix _ => ?_) fun event hmem => ?_⟩
    · exact absurd (List.prefix_nil.1 hprefix) (by simp)
    · exact absurd hmem List.not_mem_nil
  | append_singleton past r ih =>
    obtain ⟨hquery, hstage⟩ := ih
    have hafter : start.after (past ++ [r]) = ((start.after past).ask r).desk :=
      start.after_append past [r]
    have hlog : start.log (past ++ [r]) = start.log past ++ ((start.after past).ask r).events := by
      rw [start.log_append]
      exact congrArg _ (List.append_nil _)
    rw [hafter, hlog]
    refine ⟨?_, hstage.ask hquery r⟩
    rw [Desk.query_ask, heldQuery_concat, hquery]

/-- A matcher holds the query that was set last. As long as no attempt has met a query that parses,
it waits, and what it has logged are failures. Afterwards it has the tree of the query that was met
first, whose compilation was logged last, and it is settled. To set a query and to look at the
matcher is possible all the time and never logged. -/
theorem life_cycle (q : Text) (findings : Text → Findings) (past : List Request) :
    let start : Desk := ⟨.ofText q, findings⟩
    let d := start.after past
    d.matcher.query = heldQuery q past ∧
    ((Uncompiled q past ∧ d.Waits ∧ ∀ event ∈ start.log past, Failure event) ∨
      ∃ query tree, CompiledTo q past query tree ∧ d.Settled tree ∧
        ∃ log, start.log past = log ++ [.compiled query tree] ∧ ∀ event ∈ log, Failure event) ∧
    (∀ query, d.ask (.setQuery query) =
      ⟨.ok .done, [], ⟨⟨query, d.matcher.tree⟩, d.findings⟩⟩) ∧
    d.ask .isCompiled = ⟨.ok (.isCompiled d.matcher.tree.isSome), [], d⟩ ∧
    d.ask .describe = ⟨.ok (.text ("Interpreter(".toList ++ d.matcher.query.literal ++
      ", compiled=".toList ++
      (if d.matcher.tree.isSome then "True".toList else "False".toList) ++ [')'])), [], d⟩ ∧
    (∀ query fault, (Event.failed query fault).message = "Failed to compile query ".toList ++
      query.literal ++ ": ".toList ++ fault.message) ∧
    ∀ query tree, (Event.compiled query tree).message = "Compiled query ".toList ++
      query.literal ++ " -> ".toList ++ tree.render := by
  intro start d
  obtain ⟨hquery, hstage⟩ := stage_after q findings past
  refine ⟨hquery, ?_, fun query => rfl, rfl, rfl, fun query fault => rfl, fun query tree => rfl⟩
  generalize htree : d.matcher.tree = found at hstage
  generalize hlog : start.log past = log at hstage
  cases hstage with
  | waiting huncompiled failures =>
    exact Or.inl ⟨huncompiled, Desk.waits_of_tree_none htree, failures⟩
  | @compiled query tree log hcompiled failures =>
    exact Or.inr ⟨query, tree, hcompiled, Desk.settled_of_tree htree, log, rfl, failures⟩

/-- The first query does not parse, the second one does, and the third one is not looked at. What is
executed adds to findings that have a hit, and to none that have another name. -/
theorem life_cycle_held :
    let given : Findings := ⟨true, [⟨5, 2, 0⟩]⟩
    let start : Desk := ⟨.ofText "a &".toList, fun _ => given⟩
    let past : List Request := [.compile, .execute "ab".toList (.held ['f']), .setQuery ['b'],
      .execute "ab".toList (.held ['f']), .setQuery ['(']]
    let d := start.after past
    let reply := d.ask (.execute "xxc".toList (.held ['f']))
    start.log past = [.failed "a &".toList (.unexpectedToken none),
      .failed "a &".toList (.unexpectedToken none), .compiled ['b'] (.term ['b'])] ∧
    d.matcher.query = ['('] ∧ d.findings ['f'] = ⟨true, [⟨5, 2, 0⟩, ⟨1, 1, 0⟩]⟩ ∧
    reply.answer = .ok (.findings ⟨true, [⟨5, 2, 0⟩, ⟨1, 1, 0⟩, ⟨0, 0, 1⟩]⟩) ∧
    reply.desk.findings ['f'] = ⟨true, [⟨5, 2, 0⟩, ⟨1, 1, 0⟩, ⟨0, 0, 1⟩]⟩ ∧
    reply.desk.findings ['g'] = given ∧ d.Settled (.term ['b']) := by
  intro given start past d reply
  have htree : d.matcher.tree = some (.term ['b']) := by decide +kernel
  have hfindings : d.findings ['f'] = ⟨true, [⟨5, 2, 0⟩, ⟨1, 1, 0⟩]⟩ := by decide +kernel
  have hother : d.findings ['g'] = given := by decide +kernel
  have hevaluate : Tree.evaluate "xxc".toList (.term ['b']) (d.findings ['f']) =
      (true, ⟨true, [⟨5, 2, 0⟩, ⟨1, 1, 0⟩, ⟨0, 0, 1⟩]⟩) := by
    rw [hfindings]
    decide
  obtain ⟨hquery, ⟨-, hwaits, -⟩ | ⟨query, tree, -, hsettled, -⟩, -⟩ :=
    life_cycle "a &".toList (fun _ => given) past
  · cases htree.symm.trans hwaits.1
  · obtain ⟨hkept, hserves, -⟩ := hsettled []
    obtain rfl : tree = .term ['b'] := Option.some.inj (hkept.symm.trans htree)
    have hexecutes : d.Executes (.term ['b']) [] "xxc".toList ['f'] (d.findings ['f']) reply :=
      hserves.held "xxc".toList ['f']
    have hanswer := hexecutes.answer
    have hstored := hexecutes.stored
    rw [hevaluate] at hanswer hstored
    exact ⟨by decide +kernel, hquery, hfindings, hanswer, hstored,
      (hexecutes.others ['g'] (by decide)).trans hother, hsettled⟩

end Matcher

end FuzzyQuery
