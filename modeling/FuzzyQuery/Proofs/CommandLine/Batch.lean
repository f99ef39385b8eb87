import FuzzyQuery.Proofs.CommandLine.Output

/-!
# Many subjects in one run

A match writes one result for every subject, in the order of the arguments, and the exit code tells
whether all of them match. What is written is the list of the results and nothing else: a reader of
JSON gets it back, and else it is put down line by line. A query that does not parse is reported in
the same way for all subjects.
-/

namespace FuzzyQuery

open Findings

/-- The output shows these results, in this order, and no others. As JSON it is a list of objects;
otherwise every result has a line with the verdict and a table of the hits by their offsets. -/
def Shows (results : List (Text × Findings)) (out : Text) : Bool → Prop
  | true => Json.decode out = some (.array (results.map fun (s, f) => .object
      [("subject".toList, .text s), ("success".toList, .bool f.success),
        ("term".toList, .object (f.hits.map fun h => (Text.ofInt h.offset,
          .object [("length".toList, .number h.length), ("gap".toList, .number h.gap)])))]))
  | false => out = results.flatMap fun (s, f) =>
      verdictLine s f.success ++ drawn s (f.hits.mergeSort fun a b => a.offset ≤ b.offset)

theorem shows_reportResults (asJson : Bool) (results : List (Text × Findings)) :
    Shows results (Command.reportResults asJson results) asJson := by
  cases asJson with
  | true =>
    have hnewline : ∀ c ∈ ['\n'], Json.isSpace c = true := List.all_eq_true.1 rfl
    exact Json.decode_write _ hnewline
  | false =>
    simp only [Command.reportResults, Bool.false_eq_true, if_false, report_eq]
    rfl

namespace Text

def isPlain (t : Text) : Bool := t.all fun c => c ≠ '\t' && !movesCursor c

variable {t : Text}

theorem expandTabs_of_isPlain (h : t.isPlain = true) (column : Nat) : expandTabs column t = t := by
  induction t generalizing column with
  | nil => rfl
  | cons c t ih =>
    simp only [isPlain, List.all_cons, Bool.and_eq_true, decide_eq_true_eq] at h
    obtain ⟨⟨hc, -⟩, ht⟩ := h
    rw [expandTabs, if_neg hc, ih ht, ih ht, ite_self]

/-- A terminal shows plain text as it is. -/
theorem display_of_isPlain (h : t.isPlain = true) : t.display = t := by
  have hfilter : t.filter (fun c => !movesCursor c) = t := by
    rw [List.filter_eq_self]
    intro c hc
    exact (Bool.and_eq_true_iff.1 (List.all_eq_true.1 h c hc)).2
  rw [display, hfilter, expandTabs_of_isPlain h]

end Text

theorem Findings.verdictLine_of_isPlain {s : Text} (h : s.isPlain = true) (success : Bool) :
    verdictLine s success =
      (if success then "MATCH ".toList else "NO MATCH ".toList) ++ s ++ ['\n'] := by
  have hline : Text.isPlain ((if success then "MATCH ".toList else "NO MATCH ".toList) ++ s) := by
    rw [Text.isPlain, List.all_append, Bool.and_eq_true_iff]
    refine ⟨?_, h⟩
    cases success with
    | true => rfl
    | false => rfl
  rw [verdictLine, Text.display_of_isPlain hline]

/-- A match is asked for with any query and any subjects. The exit code is 2 exactly when the query
does not parse, and then its error is all that is written, the same whatever the subjects are and
however the results are wanted. Otherwise the results of all subjects are written in the order of
the arguments, each of them the one that the subject has alone, and the exit code is 0 when all
subjects match and 1 when one of them does not. With the subjects in another order the results are
in that order, and the exit code is the same. A verdict shows a plain subject as it is. -/
theorem match_each_subject_alone (query : Text) :
    (∀ subjects asJson, subjects ≠ [] → ∃ args, AsksMatch query subjects asJson args) ∧
    (∀ subjects asJson args environment, AsksMatch query subjects asJson args →
      ((runArgs args environment).exit = 2 ↔ ∃ e, parse query = .error e)) ∧
    (∀ e, parse query = .error e → ∃ report, e.Reported query report ∧
      ∀ subjects asJson args environment, AsksMatch query subjects asJson args →
        (runArgs args environment).out = report) ∧
    (∀ tree, parse query = .ok tree → ∃ alone : Text → Findings,
      (∀ s, findMatches query s = .ok (alone s)) ∧
      ∀ subjects asJson args environment, AsksMatch query subjects asJson args →
        let r := runArgs args environment
        Shows (subjects.map fun s => (s, alone s)) r.out asJson ∧
        r.exit = (if ∀ s ∈ subjects, (alone s).success = true then 0 else 1) ∧
        ∀ subjects' asJson' args' environment', subjects'.Perm subjects →
          AsksMatch query subjects' asJson' args' →
          (runArgs args' environment').exit = r.exit ∧
          ∃ results, results.Perm (subjects.map fun s => (s, alone s)) ∧
            results.map Prod.fst = subjects' ∧
            Shows results (runArgs args' environment').out asJson') ∧
    ∀ s success, s.isPlain = true → verdictLine s success =
      (if success then "MATCH ".toList else "NO MATCH ".toList) ++ s ++ ['\n'] := by
  refine ⟨fun subjects asJson hne => ⟨_, asksMatch_matchArgs query hne asJson⟩,
    fun subjects asJson args environment hasks => hasks.asks.exit_eq_two_iff environment,
    fun e herror => ⟨e.report, reported_of_parse herror,
      fun subjects asJson args environment hasks => (hasks.refused herror environment).2⟩,
    fun tree hparse => ⟨fun s => tree.search s .empty, findMatches_of_parse hparse, ?_⟩,
    fun s success hplain => verdictLine_of_isPlain hplain success⟩
  intro subjects asJson args environment hasks r
  obtain ⟨hexit, hout⟩ := hasks.reported hparse environment
  refine ⟨?_, hexit, fun subjects' asJson' args' environment' hperm hasks' => ?_⟩
  · rw [hout]
    exact shows_reportResults asJson _
  · obtain ⟨hexit', hout'⟩ := hasks'.reported hparse environment'
    refine ⟨?_, _, hperm.map _, ?_, ?_⟩
    · rw [hexit', hexit]
      simp only [hperm.mem_iff]
    · rw [List.map_map]
      exact List.map_id subjects'
    · rw [hout']
      exact shows_reportResults asJson' _

/-- One subject is given twice and matches, and the one between does not match. The hits of the
latter are recorded in the other order than that of their offsets. -/
theorem match_each_subject_alone_repeated :
    let query := "!cdef & ab".toList
    let subjects := ["xab".toList, "abcde".toList, "xab".toList]
    let args := ["match", "!cdef & ab", "xab", "abcde", "xab"].map String.toList
    let hit (length gap : Int) : Json :=
      .object [("length".toList, .number length), ("gap".toList, .number gap)]
    let found : Json := .object [("subject".toList, .text "xab".toList),
      ("success".toList, .bool true), ("term".toList, .object [("1".toList, hit 2 0)])]
    let missed : Json := .object [("subject".toList, .text "abcde".toList),
      ("success".toList, .bool false),
      ("term".toList, .object [("2".toList, hit 3 1), ("0".toList, hit 2 0)])]
    AsksMatch query subjects false args ∧ AsksMatch query subjects true (args ++ ["--json".toList]) ∧
      (runArgs args none).exit = 1 ∧
      (runArgs args none).out =
        "MATCH xab\n".toList ++ drawn "xab".toList [⟨1, 2, 0⟩] ++
        ("NO MATCH abcde\n".toList ++ drawn "abcde".toList [⟨0, 2, 0⟩, ⟨2, 3, 1⟩]) ++
        ("MATCH xab\n".toList ++ drawn "xab".toList [⟨1, 2, 0⟩]) ∧
      (runArgs (args ++ ["--json".toList]) (some "debug".toList)).exit = 1 ∧
      Json.decode (runArgs (args ++ ["--json".toList]) (some "debug".toList)).out =
        some (.array [found, missed, found]) := by
  intro query subjects args hit found missed
  have hasks : AsksMatch query subjects false args := ⟨none, rfl⟩
  have hasks' : AsksMatch query subjects true (args ++ ["--json".toList]) := ⟨none, rfl⟩
  have hparse : parse query = .ok (.op .and (.not (.term "cdef".toList)) (.term "ab".toList)) := by
    decide +kernel
  obtain ⟨-, -, -, hfound, hplain⟩ := match_each_subject_alone query
  obtain ⟨alone, halone, hruns⟩ := hfound _ hparse
  have hsearch (s : Text) := Except.ok.inj ((halone s).symm.trans (findMatches_of_parse hparse s))
  have hhit : alone "xab".toList = ⟨true, [⟨1, 2, 0⟩]⟩ :=
    (hsearch "xab".toList).trans (by decide +kernel)
  have hmiss : alone "abcde".toList = ⟨false, [⟨2, 3, 1⟩, ⟨0, 2, 0⟩]⟩ :=
    (hsearch "abcde".toList).trans (by decide +kernel)
  obtain ⟨hout, hexit, -⟩ := hruns subjects false args none hasks
  obtain ⟨hout', hexit', -⟩ := hruns subjects true _ (some "debug".toList) hasks'
  have hone : ¬ ∀ s ∈ subjects, (alone s).success = true := by
    intro hall
    have hmissed := hall "abcde".toList (by simp [subjects])
    rw [hmiss] at hmissed
    cases hmissed
  refine ⟨hasks, hasks', hexit.trans (if_neg hone), ?_, hexit'.trans (if_neg hone), ?_⟩
  · have hsorted : (⟨false, [⟨2, 3, 1⟩, ⟨0, 2, 0⟩]⟩ : Findings).sortedHits =
        [⟨0, 2, 0⟩, ⟨2, 3, 1⟩] := sortedHits_eq (.swap _ _ []) (by decide)
    have hyes : verdictLine "xab".toList true = "MATCH xab\n".toList := hplain _ true rfl
    have hno : verdictLine "abcde".toList false = "NO MATCH abcde\n".toList := hplain _ false rfl
    refine hout.trans ?_
    rw [sortedHits] at hsorted
    simp only [subjects, List.map_cons, List.map_nil, List.flatMap_cons, List.flatMap_nil, hhit,
      hmiss, hyes, hno, hsorted, List.mergeSort_singleton, List.append_assoc, List.append_nil]
  · refine hout'.trans ?_
    simp only [subjects, List.map_cons, List.map_nil, hhit, hmiss]
    rfl

end FuzzyQuery
