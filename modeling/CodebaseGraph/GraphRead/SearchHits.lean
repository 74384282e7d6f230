import CodebaseGraph.Collections.RankedRuns
import CodebaseGraph.Wiki.Search.SearchIndex

/-! The hits of a graph search (`src/api/graph_read.rs`): how the candidates of the indexes are
ranked, and which of them are listed.
-/

namespace CodebaseGraph.GraphRead

open CodebaseGraph.Collections CodebaseGraph.Wiki.Search

structure GraphSearchRequest where
  query : String
  layer : String
  limit : Nat
  profile : String
  budget : Nat
  contextLimit : Nat
  maxDepth : Option Nat
deriving DecidableEq, Repr

structure SearchHitRow (Score : Type) where
  id : String
  nodeType : String
  label : String
  qualifiedName : String
  path : String
  lineStart : Option Int
  lineEnd : Option Int
  summary : String
  grammarVersion : String
  treeSitterNodeType : String
  score : Score
  rankScore : Score
  indexOrder : Nat
  layer : String
deriving DecidableEq, Repr

/-- The floating-point operations on scores. Literals are given in hundredths; `weigh` is the
rounded sum of a quarter, a quarter and a half of its arguments.
-/
structure ScoreArithmetic (Score : Type) where
  literal : Nat → Score
  divide : Score → Score → Score
  weigh : Score → Score → Score → Score

section Ranking

variable {Score : Type} [LinearOrder Score] (arithmetic : ScoreArithmetic Score)

def lexicalScore (query : String) (hit : SearchHitRow Score) : Score :=
  let normalizedQuery := toAsciiLowercase query
  if normalizedQuery.isEmpty then arithmetic.literal 0
  else
    let label := toAsciiLowercase hit.label
    let qualifiedName := toAsciiLowercase hit.qualifiedName
    let path := toAsciiLowercase hit.path
    if label = normalizedQuery ∨ qualifiedName = normalizedQuery then arithmetic.literal 100
    else if contains label normalizedQuery || contains qualifiedName normalizedQuery then
      arithmetic.literal 80
    else if contains path normalizedQuery then arithmetic.literal 50
    else arithmetic.literal 0

def entityPriorityScore (nodeType : String) : Score :=
  if nodeType ∈ ["Class", "Function", "Method", "Module", "Variable", "Parameter", "Field",
      "Enum", "Interface", "Trait", "Struct"] then
    arithmetic.literal 100
  else if nodeType ∈ ["File", "DocumentationChunk", "DocumentationSource"] then
    arithmetic.literal 80
  else if nodeType ∈ ["CallExpression", "Reference", "ImportDeclaration", "Assignment"] then
    arithmetic.literal 60
  else if nodeType = "Symbol" then arithmetic.literal 25
  else if nodeType = "Dependency" then arithmetic.literal 20
  else if nodeType = "SyntaxCapture" then arithmetic.literal 10
  else arithmetic.literal 50

/-- Every hit gets its rank score, relative to the best score of the list. -/
def rankSearchHits (hits : List (SearchHitRow Score)) (query : String)
    : List (SearchHitRow Score) :=
  let maxScore := hits.foldl (fun best hit => max best hit.score) (arithmetic.literal 0)
  hits.map (fun hit =>
    let ftsScore :=
      if arithmetic.literal 0 < maxScore then arithmetic.divide hit.score maxScore
      else arithmetic.literal 0
    { hit with
      rankScore :=
        arithmetic.weigh ftsScore (lexicalScore arithmetic query hit)
          (entityPriorityScore arithmetic hit.nodeType) })

/-- The order of the hits: the better rank score first, then the other fields upwards. -/
def compareHits : SearchHitRow Score → SearchHitRow Score → Ordering :=
  compareLex (fun left right => compare right.rankScore left.rankScore)
    (compareLex (compareOn SearchHitRow.indexOrder)
      (compareLex (compareOn SearchHitRow.path)
        (compareLex (compareOn SearchHitRow.lineStart) (compareOn SearchHitRow.id))))

/-- Hits are ranked and sorted; of neighbours with one id the first is kept. -/
def sortSearchHits (hits : List (SearchHitRow Score)) (query : String)
    : List (SearchHitRow Score) :=
  runHeads SearchHitRow.id (sortByRank compareHits (rankSearchHits arithmetic hits query))

def selectSearchHits (options : GraphSearchRequest)
    (semanticHits syntaxHits : List (SearchHitRow Score))
    : List (SearchHitRow Score) :=
  let semanticHits := sortSearchHits arithmetic semanticHits options.query
  let syntaxHits := sortSearchHits arithmetic syntaxHits options.query
  if options.layer = "syntax" then syntaxHits.take options.limit
  else if options.layer = "hybrid" then
    let semanticCount := min semanticHits.length options.limit
    semanticHits.take semanticCount ++ syntaxHits.take (options.limit - semanticCount)
  else semanticHits.take options.limit

end Ranking

section Comparison

variable {Score : Type} [LinearOrder Score]

instance : Std.TransCmp (fun left right : SearchHitRow Score =>
    compare right.rankScore left.rankScore) :=
  inferInstanceAs (Std.TransCmp (fun left right : SearchHitRow Score =>
    compareOn SearchHitRow.rankScore right left))

instance : Std.TransCmp (@compareHits Score _) := by
  unfold compareHits
  infer_instance

/-- Hits that tie in every field have one id. -/
theorem id_eq_of_compareHits {left right : SearchHitRow Score} (tied : compareHits left right = .eq)
    : left.id = right.id := by
  simp only [compareHits, compareLex, Ordering.then_eq_eq] at tied
  exact Std.LawfulEqCmp.eq_of_compare tied.2.2.2.2

end Comparison

end CodebaseGraph.GraphRead

/-! Which selections list every node once. Only neighbours of the ranked list are compared, so a
node is listed twice if its id returns behind another one before the list is full.
-/

namespace CodebaseGraph.GraphRead

open CodebaseGraph.Collections CodebaseGraph.Wiki.Search

variable {Score : Type} [LinearOrder Score]

section Requested

variable (arithmetic : ScoreArithmetic Score) (options : GraphSearchRequest)

/-- The ranked semantic candidates, if the request asks for that layer. -/
def requestedSemantic (semanticHits : List (SearchHitRow Score)) : List (SearchHitRow Score) :=
  if options.layer = "syntax" then [] else rankSearchHits arithmetic semanticHits options.query

/-- The ranked syntax candidates, if the request asks for that layer. -/
def requestedSyntax (syntaxHits : List (SearchHitRow Score)) : List (SearchHitRow Score) :=
  if options.layer = "syntax" ∨ options.layer = "hybrid" then
    rankSearchHits arithmetic syntaxHits options.query
  else []

end Requested

/-- The first hits of a layer, one of each run of equal ids. -/
def firstHits (candidates : List (SearchHitRow Score)) (room : Nat) : List (SearchHitRow Score) :=
  (runHeads SearchHitRow.id (sortByRank compareHits candidates)).take room

/-- No candidate of the same id ranks before the hit. -/
def BestOf (candidates : List (SearchHitRow Score)) (hit : SearchHitRow Score) : Prop :=
  hit ∈ candidates ∧ ∀ other ∈ candidates, other.id = hit.id → (compareHits hit other).isLE

/-- The selection lists every node once. -/
structure ListsOnce (limit : Nat) (semantic syntactic result : List (SearchHitRow Score)) : Prop where
  bounded : result.length ≤ limit
  distinct : (result.map SearchHitRow.id).Nodup
  layered
    : ∃ front back,
        result = front ++ back
        ∧ (∀ hit ∈ front, BestOf semantic hit)
        ∧ (∀ hit ∈ back, BestOf syntactic hit)
        ∧ front.Pairwise (fun left right => (compareHits left right).isLE)
        ∧ back.Pairwise (fun left right => (compareHits left right).isLE)
  full
    : result.length < limit → distinctKeys SearchHitRow.id (semantic ++ syntactic) < limit

/-- No id comes back while there is room: not behind another id of its layer, and in the syntax
layer not after the semantic one.
-/
structure NoneReturns (limit : Nat) (semantic syntactic : List (SearchHitRow Score)) : Prop where
  within
    : ∀ hit ∈ semantic,
        ReturnsAmong SearchHitRow.id compareHits semantic hit
        → limit ≤ keysBefore SearchHitRow.id compareHits semantic hit
  across
    : ∀ hit ∈ syntactic,
        ReturnsAmong SearchHitRow.id compareHits syntactic hit
        ∨ hit.id ∈ semantic.map SearchHitRow.id
        → limit - distinctKeys SearchHitRow.id semantic
          ≤ keysBefore SearchHitRow.id compareHits syntactic hit

section Selection

variable {semantic syntactic : List (SearchHitRow Score)} {limit : Nat}

theorem selectSearchHits_eq (arithmetic : ScoreArithmetic Score) (options : GraphSearchRequest)
    (semanticHits syntaxHits : List (SearchHitRow Score))
    : selectSearchHits arithmetic options semanticHits syntaxHits
      = firstHits (requestedSemantic arithmetic options semanticHits) options.limit
        ++ firstHits (requestedSyntax arithmetic options syntaxHits)
            (options.limit
              - (runHeads SearchHitRow.id
                  (sortByRank compareHits (requestedSemantic arithmetic options semanticHits))).length) := by
  have empty : sortByRank compareHits ([] : List (SearchHitRow Score)) = [] := List.mergeSort_nil
  by_cases syntactic : options.layer = "syntax"
  · simp [selectSearchHits, requestedSemantic, requestedSyntax, firstHits, syntactic, empty, runHeads,
      sortSearchHits]
  · by_cases hybrid : options.layer = "hybrid"
    · simp only [selectSearchHits, requestedSemantic, requestedSyntax, firstHits, hybrid,
        sortSearchHits, if_true, or_true, String.reduceEq, if_false]
      rw [min_comm, ← List.take_eq_take_min]
      congr 2
      omega
    · simp [selectSearchHits, requestedSemantic, requestedSyntax, firstHits, syntactic, hybrid, empty,
        runHeads, sortSearchHits]

theorem firstHits_pairwise {candidates : List (SearchHitRow Score)} {room : Nat}
    : (firstHits candidates room).Pairwise (fun left right => (compareHits left right).isLE) :=
  sortByRank_pairwise.sublist ((List.take_sublist _ _).trans (List.destutter_sublist _ _))

/-- The heads of the semantic layer leave room for as many hits as its ids do. -/
theorem room_eq (distinct : ((firstHits semantic limit).map SearchHitRow.id).Nodup)
    : limit - (runHeads SearchHitRow.id (sortByRank compareHits semantic)).length
      = limit - distinctKeys SearchHitRow.id semantic := by
  rw [sub_length_runHeads distinct, distinctKeys_sortByRank]

/-- While there is room left, every semantic id is listed. -/
theorem ids_firstHits
    (left : (runHeads SearchHitRow.id (sortByRank compareHits semantic)).length < limit) (found : String)
    : found ∈ (firstHits semantic limit).map SearchHitRow.id ↔ found ∈ semantic.map SearchHitRow.id := by
  rw [firstHits, List.take_of_length_le left.le, mem_keys_runHeads]
  simp only [List.mem_map, mem_sortByRank]

/-- The syntax layer repeats nothing of the semantic one exactly if no id is met in both while
there is room.
-/
theorem firstHits_apart_iff {room : Nat}
    (room_eq : room = limit - (runHeads SearchHitRow.id (sortByRank compareHits semantic)).length)
    (distinct : ((firstHits syntactic room).map SearchHitRow.id).Nodup)
    : (∀ found ∈ (firstHits syntactic room).map SearchHitRow.id,
        found ∉ (firstHits semantic limit).map SearchHitRow.id)
      ↔ ∀ hit ∈ syntactic,
          hit.id ∈ semantic.map SearchHitRow.id
          → room ≤ keysBefore SearchHitRow.id compareHits syntactic hit := by
  have tied (left right : SearchHitRow Score) (equal : compareHits left right = .eq) :=
    id_eq_of_compareHits equal
  refine Iff.trans ?_ (forall_take_sorted_iff tied distinct
    (fun found => found ∈ semantic.map SearchHitRow.id))
  rcases Nat.eq_zero_or_pos room with rfl | positive
  · simp [firstHits]
  · have left : (runHeads SearchHitRow.id (sortByRank compareHits semantic)).length < limit := by
      omega
    exact forall_congr' (fun found => imp_congr_right (fun _ => not_congr (ids_firstHits left found)))

/-- The ids of a selection are distinct exactly if none returns. -/
theorem nodup_firstHits_iff
    : ((firstHits semantic limit
          ++ firstHits syntactic
              (limit - (runHeads SearchHitRow.id (sortByRank compareHits semantic)).length)).map
        SearchHitRow.id).Nodup
      ↔ NoneReturns limit semantic syntactic := by
  have tied (left right : SearchHitRow Score) (equal : compareHits left right = .eq) :=
    id_eq_of_compareHits equal
  rw [List.map_append, List.nodup_append']
  constructor
  · rintro ⟨front, back, apart⟩
    refine ⟨(nodup_take_sorted_iff tied).mp front, fun hit member either => ?_⟩
    rw [← room_eq front]
    rcases either with returned | shared
    · exact (nodup_take_sorted_iff tied).mp back hit member returned
    · exact (firstHits_apart_iff rfl back).mp (fun found listed => fun both => apart both listed)
        hit member shared
  · intro free
    have front : ((firstHits semantic limit).map SearchHitRow.id).Nodup :=
      (nodup_take_sorted_iff tied).mpr free.within
    have across := free.across
    rw [← room_eq front] at across
    have back := (nodup_take_sorted_iff tied).mpr
      (fun hit member returned => across hit member (.inl returned))
    refine ⟨front, back, fun found both listed => ?_⟩
    exact (firstHits_apart_iff rfl back).mpr (fun hit member shared => across hit member (.inr shared))
      found listed both

/-- No layer has more ids than its heads. -/
theorem distinctKeys_le_heads (candidates : List (SearchHitRow Score))
    : distinctKeys SearchHitRow.id candidates
      ≤ (runHeads SearchHitRow.id (sortByRank compareHits candidates)).length := by
  have sorted
      : distinctKeys SearchHitRow.id (sortByRank compareHits candidates)
        = distinctKeys SearchHitRow.id candidates :=
    distinctKeys_sortByRank
  rw [← sorted, ← distinctKeys_runHeads]
  exact distinctKeys_le_length

/-- With fewer hits than asked for, no id of the requested layers is left out. -/
theorem distinctKeys_lt_of_length
    (less
      : (firstHits semantic limit
          ++ firstHits syntactic
              (limit - (runHeads SearchHitRow.id (sortByRank compareHits semantic)).length)).length
        < limit)
    : distinctKeys SearchHitRow.id (semantic ++ syntactic) < limit := by
  have front := distinctKeys_le_heads semantic
  have back := distinctKeys_le_heads syntactic
  have both
      : distinctKeys SearchHitRow.id (semantic ++ syntactic)
        ≤ distinctKeys SearchHitRow.id semantic + distinctKeys SearchHitRow.id syntactic :=
    distinctKeys_append_le semantic syntactic
  rw [List.length_append, firstHits, firstHits, List.length_take, List.length_take] at less
  omega

/-- The selection lists every node once exactly if no id returns. -/
theorem listsOnce_iff
    : ListsOnce limit semantic syntactic
        (firstHits semantic limit
          ++ firstHits syntactic
              (limit - (runHeads SearchHitRow.id (sortByRank compareHits semantic)).length))
      ↔ NoneReturns limit semantic syntactic := by
  rw [← nodup_firstHits_iff]
  refine ⟨ListsOnce.distinct, fun distinct => ?_⟩
  have parts := distinct
  rw [List.map_append, List.nodup_append'] at parts
  obtain ⟨front, back, -⟩ := parts
  have best {candidates : List (SearchHitRow Score)} {room : Nat}
      (once : ((firstHits candidates room).map SearchHitRow.id).Nodup) (hit : SearchHitRow Score)
      (member : hit ∈ firstHits candidates room)
      : BestOf candidates hit :=
    best_of_take_sorted once member
  refine ⟨?_, distinct, ?_, distinctKeys_lt_of_length⟩
  · rw [List.length_append, firstHits, firstHits, List.length_take, List.length_take]
    omega
  · exact ⟨_, _, rfl, best front, best back, firstHits_pairwise, firstHits_pairwise⟩

end Selection

/-- A selection lists every node once exactly if, while there is room, no id comes back behind
another id of its layer or from the semantic into the syntax layer.
-/
theorem selectSearchHits_listsOnce_iff (arithmetic : ScoreArithmetic Score)
    (options : GraphSearchRequest) (semanticHits syntaxHits : List (SearchHitRow Score))
    : ListsOnce options.limit (requestedSemantic arithmetic options semanticHits)
        (requestedSyntax arithmetic options syntaxHits)
        (selectSearchHits arithmetic options semanticHits syntaxHits)
      ↔ NoneReturns options.limit (requestedSemantic arithmetic options semanticHits)
          (requestedSyntax arithmetic options syntaxHits) := by
  rw [selectSearchHits_eq]
  exact listsOnce_iff

-- A node of two indexes

/-- Scores in hundredths. -/
def hundredths : ScoreArithmetic Nat where
  literal value := value
  divide score best := score * 100 / best
  weigh fts lexical entity := (fts + lexical + 2 * entity) / 4

def functionHit (id : String) (score indexOrder : Nat) : SearchHitRow Nat :=
  { id := id
    nodeType := "Function"
    label := id
    qualifiedName := id
    path := "src/lib.rs"
    lineStart := some 1
    lineEnd := some 2
    summary := ""
    grammarVersion := ""
    treeSitterNodeType := ""
    score := score
    rankScore := 0
    indexOrder := indexOrder
    layer := "semantic" }

def semanticRequest : GraphSearchRequest :=
  { query := "q"
    layer := "semantic"
    limit := 10
    profile := "brief"
    budget := 100
    contextLimit := 5
    maxDepth := none }

/-- A function found by two indexes, with another one ranked between. -/
def interleavedHits : List (SearchHitRow Nat) :=
  [functionHit "f" 100 0, functionHit "g" 60 0, functionHit "f" 20 1]

theorem selectSearchHits_repeats
    : ¬ ∀ (options : GraphSearchRequest) (semanticHits syntaxHits : List (SearchHitRow Nat)),
        ((semanticHits.map (fun hit => (hit.indexOrder, hit.nodeType, hit.id))).Nodup
          ∧ (syntaxHits.map (fun hit => (hit.indexOrder, hit.nodeType, hit.id))).Nodup)
        → ListsOnce options.limit (requestedSemantic hundredths options semanticHits)
            (requestedSyntax hundredths options syntaxHits)
            (selectSearchHits hundredths options semanticHits syntaxHits) := by
  intro once
  have listed := once semanticRequest interleavedHits [] (by decide)
  rw [selectSearchHits_eq] at listed
  have free := (listsOnce_iff.mp listed).within
  have returned := free { functionHit "f" 20 1 with rankScore := 55 } (by decide)
    ⟨{ functionHit "f" 100 0 with rankScore := 75 }, by decide,
      { functionHit "g" 60 0 with rankScore := 65 }, by decide, by decide⟩
  exact absurd returned (by decide)

end CodebaseGraph.GraphRead
