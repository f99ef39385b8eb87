import FuzzyQuery.Proofs.CommandLine.Agreement
import FuzzyQuery.Proofs.CommandLine.Rows
import FuzzyQuery.Proofs.Json.Ascii
import FuzzyQuery.Proofs.Json.RoundTrip

/-!
# Output as JSON

Results and dumps are values of which no object has a key twice, so that a reader may keep the
members of an object under their keys and loses none. The keys of the hits are their offsets, which
are all different and stay so in decimal digits. A dump tells by its keys what kind of tree it is
of, and is undone from there.
-/

namespace FuzzyQuery

theorem Text.ofInt_injective : Function.Injective Text.ofInt := by
  intro m n h
  have hsame : Json.write .ascii (.number m) = Json.write .ascii (.number n) := h
  exact Json.number.inj (Json.write_injective hsame)

def Operator.ofName? : Text → Option Operator
  | ['&'] => some .and
  | ['|'] => some .or
  | _ => none

/-- Rebuilds a tree from its dump, which tells terms, negations and operations by their keys. The
tolerance of a term follows from its value and is not looked at. -/
def Tree.ofJson? : Json → Option Tree
  | .object [(key, x)] => if key = "inner".toList then (ofJson? x).map .not else none
  | .object [(key, .text value), (_, .number _)] =>
    if key = "value".toList then some (.term value) else none
  | .object [(kind, .text name), (first, x), (second, y)] =>
    if kind = "kind".toList ∧ first = "left".toList ∧ second = "right".toList then do
      let operator ← Operator.ofName? name
      let left ← ofJson? x
      let right ← ofJson? y
      return .op operator left right
    else none
  | _ => none

theorem Operator.ofName?_symbol (operator : Operator) :
    Operator.ofName? [operator.symbol] = some operator := by
  cases operator with
  | and => rfl
  | or => rfl

namespace Tree

theorem ofJson?_toJson (tree : Tree) : ofJson? tree.toJson = some tree := by
  induction tree with
  | term value => rw [toJson, ofJson?, if_pos rfl]
  | not inner ih => rw [toJson, ofJson?, if_pos rfl, ih, Option.map_some]
  | op operator left right ihl ihr =>
    rw [toJson, ofJson?, if_pos ⟨rfl, rfl, rfl⟩, Operator.ofName?_symbol, ihl, ihr]
    rfl

theorem toJson_injective : Function.Injective toJson := by
  intro tree tree' h
  have hsame := congrArg ofJson? h
  rw [ofJson?_toJson, ofJson?_toJson] at hsame
  exact Option.some.inj hsame

theorem keysDistinct_toJson (tree : Tree) : tree.toJson.KeysDistinct := by
  induction tree with
  | term value =>
    have hkeys : ["value".toList, "tolerance".toList].Nodup := by decide
    refine .object hkeys ?_
    simp only [List.forall_mem_cons]
    exact ⟨.text _, .number _, by simp⟩
  | not inner ih =>
    refine .object (List.nodup_singleton _) ?_
    simpa only [List.forall_mem_singleton] using ih
  | op operator left right ihl ihr =>
    have hkeys : ["kind".toList, "left".toList, "right".toList].Nodup := by decide
    refine .object hkeys ?_
    simp only [List.forall_mem_cons]
    exact ⟨.text _, ihl, ihr, by simp⟩

end Tree

namespace Findings

variable {subject : Text} {f : Findings}

theorem keysDistinct_toJson (hdistinct : f.offsets.Nodup) :
    (f.toJson subject).KeysDistinct := by
  have houter : ["subject".toList, "success".toList, "term".toList].Nodup := by decide
  have hinner : ["length".toList, "gap".toList].Nodup := by decide
  have hkeys : (f.hits.map fun h => Text.ofInt h.offset).Nodup := by
    have hmap := hdistinct.map Text.ofInt_injective
    rwa [offsets, List.map_map] at hmap
  refine .object houter ?_
  simp only [List.forall_mem_cons]
  refine ⟨.text _, .bool _, .object ?_ ?_, by simp⟩
  · rwa [List.map_map]
  · simp only [List.forall_mem_map]
    intro h _
    refine .object hinner ?_
    simp only [List.forall_mem_cons]
    exact ⟨.number _, .number _, by simp⟩

end Findings

variable {query : Text} {subjects args : List Text} {tree : Tree}

theorem AsksMatch.out_json (h : AsksMatch query subjects true args)
    (hparse : parse query = .ok tree) (environment : Option Text) :
    (runArgs args environment).out =
      Json.write .ascii (.array (subjects.map fun s => (tree.search s .empty).toJson s)) ++
        ['\n'] := by
  rw [(h.reported hparse environment).2, Command.reportResults, if_pos rfl, List.map_map]
  rfl

theorem Asks.out_dump (h : Asks (.parse query true) args) (hparse : parse query = .ok tree)
    (environment : Option Text) :
    (runArgs args environment).out = Json.write .unicode tree.toJson ++ ['\n'] := by
  obtain ⟨level, -, hout⟩ := h.runArgs_eq environment
  rw [hout]
  simp only [Command.run, hparse, if_true]

/-- What the commands write as JSON can be undone, when the query parses. From the output of a
match, which is ASCII, a reader gets the list of the subjects as they were given, each with its
verdict and its hits in the order in which they were recorded, the offsets being keys that are
decimal numbers and no two of them the same. From the output of parsing it gets a dump from which
the tree is rebuilt. So two queries have the same dump only if their trees are equal. -/
theorem json_outputs_lose_nothing {query : Text} {tree : Tree} (hparse : parse query = .ok tree) :
    (∃ found : Text → Findings, (∀ s, findMatches query s = .ok (found s)) ∧
      (∀ s, ∀ h ∈ (found s).hits, ∃ offset : Nat,
        h.offset = offset ∧ Text.ofInt h.offset = Nat.toDigits 10 offset) ∧
      ∀ subjects, subjects ≠ [] → (∃ args, AsksMatch query subjects true args) ∧
        ∀ args environment, AsksMatch query subjects true args →
          let out := (runArgs args environment).out
          let results : Json := .array (subjects.map fun s => .object
            [("subject".toList, .text s), ("success".toList, .bool (found s).success),
              ("term".toList, .object ((found s).hits.map fun h => (Text.ofInt h.offset,
                .object [("length".toList, .number h.length), ("gap".toList, .number h.gap)])))])
          Ascii out ∧ Json.decode out = some results ∧ results.KeysDistinct) ∧
    ∃ dump : Json, dump.KeysDistinct ∧ Tree.ofJson? dump = some tree ∧
      (∃ args, Asks (.parse query true) args) ∧
      ∀ args environment, Asks (.parse query true) args →
        let out := (runArgs args environment).out
        Json.decode out = some dump ∧
        ∀ query' tree' args' environment', parse query' = .ok tree' →
          Asks (.parse query' true) args' →
          ((runArgs args' environment').out = out ↔ tree' = tree) := by
  have hnewline : ∀ c ∈ ['\n'], Json.isSpace c = true := List.all_eq_true.1 rfl
  refine ⟨⟨fun s => tree.search s .empty, findMatches_of_parse hparse, fun s h hh => ?_,
      fun subjects hne => ⟨⟨_, asksMatch_matchArgs query hne true⟩,
        fun args environment hasks => ?_⟩⟩,
    tree.toJson, tree.keysDistinct_toJson, tree.ofJson?_toJson,
    ⟨_, Command.asks_args nofun⟩, fun args environment hasks => ?_⟩
  · obtain ⟨-, hsound, -⟩ := hits_search_spec tree s
    obtain ⟨value, -, hhits⟩ := hsound h hh
    cases hhits with
    | @intro gap offset _ _ _ => exact ⟨offset, rfl, rfl⟩
  · intro out results
    have hout : out = results.write .ascii ++ ['\n'] := hasks.out_json hparse environment
    refine ⟨?_, ?_, .array ?_⟩
    · rw [hout]
      exact ascii_append.2 ⟨Json.ascii_write results, by decide⟩
    · rw [hout]
      exact Json.decode_write results hnewline
    · simp only [List.forall_mem_map]
      intro s _
      obtain ⟨hdistinct, -⟩ := hits_search_spec tree s
      exact Findings.keysDistinct_toJson hdistinct
  · intro out
    have hout : out = tree.toJson.write .unicode ++ ['\n'] := hasks.out_dump hparse environment
    refine ⟨?_, fun query' tree' args' environment' hparse' hasks' => ?_⟩
    · rw [hout]
      exact Json.decode_write tree.toJson hnewline
    · rw [hasks'.out_dump hparse' environment', hout, List.append_left_inj,
        Json.write_injective.eq_iff, Tree.toJson_injective.eq_iff]

/-- The quote in the first term is written with an escape, and so are the two units of the last
character of the subject. What the second term found was recorded last and stands first in the
subject. -/
theorem json_outputs_lose_nothing_escaped :
    let query := "\"\\\"x\" & cd".toList
    let tree : Tree := .op .and (.term "\"x".toList) (.term "cd".toList)
    let s := "cd\"x😀".toList
    let found : Json := .object [("length".toList, .number 2), ("gap".toList, .number 0)]
    let out := (runArgs (matchArgs query [s] true) none).out
    let dumped := (runArgs (Command.parse query true).args none).out
    parse query = .ok tree ∧ Ascii out ∧
      Json.decode out = some (.array [.object [("subject".toList, .text s),
        ("success".toList, .bool true),
        ("term".toList, .object [("2".toList, found), ("0".toList, found)])]]) ∧
      ∃ dump, Json.decode dumped = some dump ∧ Tree.ofJson? dump = some tree := by
  intro query tree s found out dumped
  have hparse : parse query = .ok tree := by decide +kernel
  have hsearch : tree.search s .empty = ⟨true, [⟨2, 2, 0⟩, ⟨0, 2, 0⟩]⟩ := by decide +kernel
  have hne : [s] ≠ [] := List.cons_ne_nil s []
  obtain ⟨⟨alone, halone, -, hmatch⟩, dump, -, hrebuilt, -, hdump⟩ :=
    json_outputs_lose_nothing hparse
  have hs : alone s = ⟨true, [⟨2, 2, 0⟩, ⟨0, 2, 0⟩]⟩ :=
    (Except.ok.inj ((halone s).symm.trans (findMatches_of_parse hparse s))).trans hsearch
  obtain ⟨hascii, hdecode, -⟩ := (hmatch [s] hne).2 _ none (asksMatch_matchArgs query hne true)
  rw [List.map_singleton, hs] at hdecode
  obtain ⟨hdumped, -⟩ := hdump _ none (Command.asks_args nofun)
  exact ⟨hparse, hascii, hdecode, dump, hdumped, hrebuilt⟩

end FuzzyQuery
