import CodebaseGraph.Collections.SortedMap
import CodebaseGraph.Search.Tokens

/-! The index of the terms of documents (`src/search_index/build.rs`) and the documents that are
found in it (`src/search_index/read.rs`), before they are ranked.
-/

namespace CodebaseGraph.Search

open CodebaseGraph.Collections

-- The index

inductive SearchLayer where
  | semantic
  | syntactic
deriving DecidableEq, Repr

/-- A node that is indexed: its layer and the texts of the fields of the index. -/
structure StagedDocument where
  layer : SearchLayer
  fields : List String
deriving DecidableEq, Repr

structure Occurrence where
  term : String
  documentId : Nat
deriving DecidableEq, Repr

/-- The order of occurrences: their terms, and then their documents. -/
def Occurrence.before (first second : Occurrence) : Bool :=
  first.term < second.term || (first.term = second.term && first.documentId ≤ second.documentId)

structure Posting where
  documentId : Nat
  termFrequency : Nat
deriving DecidableEq, Repr

/-- A term with its postings. -/
structure LexiconEntry where
  term : String
  postings : List Posting
deriving DecidableEq, Repr

/-- `u32::checked_add`. -/
def countedOn (count : Nat) : Option Nat := if count + 1 < 2 ^ 32 then some (count + 1) else none

/-- The loop of `write_final_index`, with the term that is being counted and its postings so far.
None is an overflow.
-/
def writeEntries (term : String) (document frequency : Nat) (postings : List Posting)
    : List Occurrence → Option (List LexiconEntry)
  | [] => do
      let _ ← countedOn postings.length
      let postings := postings ++ [{ documentId := document, termFrequency := frequency }]
      return [{ term, postings }]
  | occurrence :: rest =>
      if term = occurrence.term ∧ document = occurrence.documentId then do
        writeEntries term document (← countedOn frequency) postings rest
      else do
        let _ ← countedOn postings.length
        let postings := postings ++ [{ documentId := document, termFrequency := frequency }]
        if term = occurrence.term then
          writeEntries term occurrence.documentId 1 postings rest
        else
          let entries ← writeEntries occurrence.term occurrence.documentId 1 [] rest
          return { term, postings } :: entries

def writeFinalIndex : List Occurrence → Option (List LexiconEntry)
  | [] => some []
  | occurrence :: rest => writeEntries occurrence.term occurrence.documentId 1 [] rest

section Index

variable (tables : CharTables)

/-- The terms of a document, field by field. -/
def StagedDocument.terms (document : StagedDocument) : List String :=
  document.fields.flatMap (tokenize tables)

def occurrences (documents : List StagedDocument) : List Occurrence :=
  documents.zipIdx.flatMap
    (fun entry => (entry.1.terms tables).map (fun term => { term, documentId := entry.2 }))

/-- The lexicon of documents; the occurrences are sorted by the time they are counted. -/
def buildIndex (documents : List StagedDocument) : Option (List LexiconEntry) :=
  writeFinalIndex ((occurrences tables documents).mergeSort Occurrence.before)

-- The search

def maxQueryTerms : Nat := 32

def addQueryTerm (terms : SortedMap String Unit) (term : String) : SortedMap String Unit :=
  if terms.keys.length < maxQueryTerms || terms.contains term then terms.insert term () else terms

def queryTerms (query : String) : SortedMap String Unit :=
  (tokenize tables query).foldl addQueryTerm .empty

/-- The loop of `find_lexicon_entries`. -/
def findEntriesLoop (terms : SortedMap String Unit) (found : SortedMap String LexiconEntry)
    : List LexiconEntry → SortedMap String LexiconEntry
  | [] => found
  | entry :: rest =>
      if terms.contains entry.term then findEntriesLoop terms (found.insert entry.term entry) rest
      else if terms.keys.getLast?.getD "" < entry.term then found
      else findEntriesLoop terms found rest

def findLexiconEntries (lexicon : List LexiconEntry) (terms : SortedMap String Unit)
    : SortedMap String LexiconEntry :=
  findEntriesLoop terms .empty lexicon

/-- The documents of a layer that the cursors on the postings of the query terms come by. -/
def candidates (documents : List StagedDocument) (lexicon : List LexiconEntry) (query : String)
    (layer : SearchLayer)
    : List Nat :=
  let entries := (findLexiconEntries lexicon (queryTerms tables query)).entries.map Prod.snd
  (documents.zipIdx.filter
    (fun document =>
      document.1.layer = layer
        && entries.any
            (fun entry => entry.postings.any (fun posting => posting.documentId = document.2)))).map
    Prod.snd

/-- Searching for a term finds every document that contains it, in whatever index that can be
built.
-/
def FindsAll (term : String) : Prop :=
  ∀ documents lexicon,
    buildIndex tables documents = some lexicon →
    ∀ (id : Nat) (document : StagedDocument),
      documents[id]? = some document →
      term ∈ document.terms tables →
      id ∈ candidates tables documents lexicon term document.layer

end Index

-----------------------------------------------------------------------------------------
-- What the lexicon holds
-----------------------------------------------------------------------------------------

/-- A term has a posting for a document. -/
def Posted (lexicon : List LexiconEntry) (term : String) (document : Nat) : Prop :=
  ∃ entry ∈ lexicon, entry.term = term ∧ document ∈ entry.postings.map Posting.documentId

theorem Posted.cons {lexicon : List LexiconEntry} {term : String} {document : Nat}
    (posted : Posted lexicon term document) (entry : LexiconEntry)
    : Posted (entry :: lexicon) term document := by
  obtain ⟨other, listed, rest⟩ := posted
  exact ⟨other, List.mem_cons_of_mem _ listed, rest⟩

/-- Every occurrence that is counted is posted. -/
theorem writeEntries_posted {term : String} {document frequency : Nat} {postings : List Posting}
    {occurrences : List Occurrence} {lexicon : List LexiconEntry}
    (written : writeEntries term document frequency postings occurrences = some lexicon)
    : (∀ id ∈ postings.map Posting.documentId ++ [document], Posted lexicon term id)
      ∧ ∀ occurrence ∈ occurrences, Posted lexicon occurrence.term occurrence.documentId := by
  induction occurrences generalizing term document frequency postings lexicon with
  | nil =>
      rw [writeEntries] at written
      obtain ⟨_, -, last⟩ := Option.bind_eq_some_iff.mp written
      obtain rfl := Option.some.inj last
      exact ⟨fun id listed => ⟨_, List.mem_singleton_self _, rfl, by simpa using listed⟩, nofun⟩
  | cons occurrence rest ih =>
      rw [writeEntries] at written
      split at written
      · next same =>
          obtain ⟨rfl, rfl⟩ := same
          obtain ⟨counted, -, later⟩ := Option.bind_eq_some_iff.mp written
          obtain ⟨current, others⟩ := ih later
          refine ⟨current, ?_⟩
          rintro other (_ | ⟨_, inside⟩)
          · exact current _ (List.mem_append_right _ (List.mem_singleton_self _))
          · exact others other inside
      · obtain ⟨_, -, later⟩ := Option.bind_eq_some_iff.mp written
        split at later
        · next same =>
            subst same
            obtain ⟨current, others⟩ := ih later
            refine ⟨?_, ?_⟩
            · intro id listed
              exact current id (List.mem_append_left _ (by simpa using listed))
            · rintro other (_ | ⟨_, inside⟩)
              · exact current _ (List.mem_append_right _ (List.mem_singleton_self _))
              · exact others other inside
        · obtain ⟨entries, written', last⟩ := Option.bind_eq_some_iff.mp later
          obtain rfl := Option.some.inj last
          obtain ⟨current, others⟩ := ih written'
          refine ⟨?_, ?_⟩
          · exact fun id listed => ⟨_, List.mem_cons_self, rfl, by simpa using listed⟩
          · rintro other (_ | ⟨_, inside⟩)
            · exact (current _ (List.mem_append_right _ (List.mem_singleton_self _))).cons _
            · exact (others other inside).cons _

/-- Terms are written in their order, each of them once. -/
theorem writeEntries_increasing {term : String} {document frequency : Nat}
    {postings : List Posting} {occurrences : List Occurrence} {lexicon : List LexiconEntry}
    (sorted : (term :: occurrences.map Occurrence.term).Pairwise (· ≤ ·))
    (written : writeEntries term document frequency postings occurrences = some lexicon)
    : (∀ entry ∈ lexicon, term ≤ entry.term)
      ∧ lexicon.Pairwise (fun first second => first.term < second.term) := by
  induction occurrences generalizing term document frequency postings lexicon with
  | nil =>
      rw [writeEntries] at written
      obtain ⟨_, -, last⟩ := Option.bind_eq_some_iff.mp written
      obtain rfl := Option.some.inj last
      simp
  | cons occurrence rest ih =>
      obtain ⟨before, sorted'⟩ := List.pairwise_cons.mp sorted
      rw [writeEntries] at written
      split at written
      · next same =>
          obtain ⟨rfl, rfl⟩ := same
          obtain ⟨counted, -, later⟩ := Option.bind_eq_some_iff.mp written
          exact ih sorted' later
      · obtain ⟨_, -, later⟩ := Option.bind_eq_some_iff.mp written
        split at later
        · next same =>
            subst same
            exact ih sorted' later
        · next other =>
            obtain ⟨entries, written', last⟩ := Option.bind_eq_some_iff.mp later
            obtain rfl := Option.some.inj last
            obtain ⟨after, increasing⟩ := ih sorted' written'
            have less : term < occurrence.term :=
              lt_of_le_of_ne (before _ List.mem_cons_self) other
            have later : ∀ entry ∈ entries, term < entry.term :=
              fun entry listed => lt_of_lt_of_le less (after entry listed)
            refine ⟨?_, List.pairwise_cons.mpr ⟨later, increasing⟩⟩
            rintro entry (_ | ⟨_, listed⟩)
            · exact le_refl _
            · exact (later entry listed).le

theorem Occurrence.le_of_before {first second : Occurrence} (order : first.before second = true)
    : first.term ≤ second.term := by
  simp only [Occurrence.before, Bool.or_eq_true, Bool.and_eq_true, decide_eq_true_eq] at order
  rcases order with less | ⟨same, -⟩
  · exact less.le
  · exact same.le

theorem Occurrence.before_trans (first second third : Occurrence)
    (order : first.before second = true) (order' : second.before third = true)
    : first.before third = true := by
  simp only [Occurrence.before, Bool.or_eq_true, Bool.and_eq_true, decide_eq_true_eq] at *
  rcases order with less | ⟨same, upto⟩
  · rcases order' with less' | ⟨same', -⟩
    · exact Or.inl (less.trans less')
    · exact Or.inl (same' ▸ less)
  · rcases order' with less' | ⟨same', upto'⟩
    · exact Or.inl (same ▸ less')
    · exact Or.inr ⟨same.trans same', upto.trans upto'⟩

theorem Occurrence.before_total (first second : Occurrence)
    : (first.before second || second.before first) = true := by
  simp only [Occurrence.before, Bool.or_eq_true, Bool.and_eq_true, decide_eq_true_eq]
  rcases lt_trichotomy first.term second.term with less | same | less
  · exact Or.inl (Or.inl less)
  · rcases Nat.le_total first.documentId second.documentId with upto | upto
    · exact Or.inl (Or.inr ⟨same, upto⟩)
    · exact Or.inr (Or.inr ⟨same.symm, upto⟩)
  · exact Or.inr (Or.inl less)

section Index

variable {tables : CharTables}

theorem mem_occurrences {documents : List StagedDocument} {id : Nat} {document : StagedDocument}
    {term : String} (found : documents[id]? = some document) (inside : term ∈ document.terms tables)
    : { term, documentId := id } ∈ occurrences tables documents :=
  List.mem_flatMap.mpr
    ⟨(document, id), List.mk_mem_zipIdx_iff_getElem?.mpr found,
      List.mem_map.mpr ⟨term, inside, rfl⟩⟩

/-- The lexicon of documents posts their terms, which are in their order. -/
theorem buildIndex_posted {documents : List StagedDocument} {lexicon : List LexiconEntry}
    (built : buildIndex tables documents = some lexicon)
    : (∀ occurrence ∈ occurrences tables documents,
        Posted lexicon occurrence.term occurrence.documentId)
      ∧ lexicon.Pairwise (fun first second => first.term < second.term) := by
  have listed (occurrence : Occurrence)
      : occurrence ∈ occurrences tables documents
        ↔ occurrence ∈ (occurrences tables documents).mergeSort Occurrence.before :=
    List.mem_mergeSort.symm
  have sorted :=
    List.pairwise_mergeSort Occurrence.before_trans Occurrence.before_total
      (occurrences tables documents)
  unfold buildIndex at built
  simp only [listed]
  cases order : (occurrences tables documents).mergeSort Occurrence.before with
  | nil =>
      rw [order] at built
      obtain rfl := Option.some.inj built
      exact ⟨nofun, List.Pairwise.nil⟩
  | cons occurrence rest =>
      rw [order] at built sorted
      obtain ⟨current, others⟩ := writeEntries_posted built
      have terms : ((occurrence :: rest).map Occurrence.term).Pairwise (· ≤ ·) :=
        List.pairwise_map.mpr (sorted.imp Occurrence.le_of_before)
      refine ⟨?_, (writeEntries_increasing terms built).2⟩
      rintro other (_ | ⟨_, inside⟩)
      · exact current _ (List.mem_append_right _ (List.mem_singleton_self _))
      · exact others other inside

-----------------------------------------------------------------------------------------
-- What is found
-----------------------------------------------------------------------------------------

/-- Entries of other terms leave what is found of a term. -/
theorem get?_findEntriesLoop_of_ne {terms : SortedMap String Unit}
    {found : SortedMap String LexiconEntry} {lexicon : List LexiconEntry} {term : String}
    (other : ∀ entry ∈ lexicon, term ≠ entry.term)
    : (findEntriesLoop terms found lexicon).get? term = found.get? term := by
  induction lexicon generalizing found with
  | nil => rfl
  | cons entry rest ih =>
      have others : ∀ entry ∈ rest, term ≠ entry.term :=
        fun entry listed => other entry (List.mem_cons_of_mem _ listed)
      rw [findEntriesLoop]
      split
      · rw [ih others, SortedMap.get?_insert_of_ne _ _ (other entry List.mem_cons_self)]
      · split
        · rfl
        · exact ih others

theorem le_last_of_contains {terms : SortedMap String Unit} {term : String}
    (inside : terms.contains term = true)
    : term ≤ terms.keys.getLast?.getD "" := by
  have member := SortedMap.contains_iff.mp inside
  have filled : terms.keys ≠ [] := List.ne_nil_of_mem member
  have increasing := terms.keys_increasing
  rw [List.getLast?_eq_some_getLast filled, Option.getD_some]
  rw [← List.dropLast_concat_getLast filled] at member increasing
  rcases List.mem_append.mp member with early | last
  · exact ((List.pairwise_append.mp increasing).2.2 _ early _ (List.mem_singleton_self _)).le
  · exact (List.mem_singleton.mp last).le

/-- The entries of the query terms are found. -/
theorem get?_findEntriesLoop {terms : SortedMap String Unit}
    {found : SortedMap String LexiconEntry} {lexicon : List LexiconEntry} {entry : LexiconEntry}
    (increasing : lexicon.Pairwise (fun first second => first.term < second.term))
    (listed : entry ∈ lexicon) (asked : terms.contains entry.term = true)
    : (findEntriesLoop terms found lexicon).get? entry.term = some entry := by
  induction lexicon generalizing found with
  | nil => cases listed
  | cons first rest ih =>
      obtain ⟨before, increasing⟩ := List.pairwise_cons.mp increasing
      rw [findEntriesLoop]
      rcases List.mem_cons.mp listed with rfl | later
      · rw [if_pos asked, get?_findEntriesLoop_of_ne (fun other inside => (before other inside).ne),
          SortedMap.get?_insert_self]
      · split
        · exact ih increasing later
        · split
          · next beyond =>
              have upto := le_last_of_contains asked
              exact absurd ((before entry later).trans_le upto) beyond.asymm
          · exact ih increasing later

theorem queryTerms_of_stable {term : String} (stable : tokenize tables term = [term])
    : queryTerms tables term = SortedMap.empty.insert term () := by
  rw [queryTerms, stable]
  rfl

theorem mem_queryTerms {query term : String}
    (asked : (queryTerms tables query).contains term = true)
    : term ∈ tokenize tables query := by
  suffices loop
      : ∀ (tokens : List String) (terms : SortedMap String Unit),
          term ∈ (tokens.foldl addQueryTerm terms).keys → term ∈ terms.keys ∨ term ∈ tokens by
    rcases loop _ _ (SortedMap.contains_iff.mp asked) with none | listed
    · cases none
    · exact listed
  intro tokens
  induction tokens with
  | nil => exact fun _ listed => Or.inl listed
  | cons token rest ih =>
      intro terms listed
      rcases ih _ listed with earlier | later
      · unfold addQueryTerm at earlier
        split at earlier
        · rcases SortedMap.mem_keys_insert.mp earlier with rfl | earlier
          · exact Or.inr List.mem_cons_self
          · exact Or.inl earlier
        · exact Or.inl earlier
      · exact Or.inr (List.mem_cons_of_mem _ later)

theorem mem_candidates {documents : List StagedDocument} {lexicon : List LexiconEntry}
    {query : String} {id : Nat} {document : StagedDocument} {entry : LexiconEntry} {term : String}
    (present : documents[id]? = some document)
    (found : (findLexiconEntries lexicon (queryTerms tables query)).get? term = some entry)
    (posted : id ∈ entry.postings.map Posting.documentId)
    : id ∈ candidates tables documents lexicon query document.layer := by
  obtain ⟨posting, listed, same⟩ := List.mem_map.mp posted
  refine List.mem_map.mpr ⟨(document, id), List.mem_filter.mpr ⟨?_, ?_⟩, rfl⟩
  · exact List.mk_mem_zipIdx_iff_getElem?.mpr present
  · have member := SortedMap.get?_eq_some_iff.mp found
    simp only [decide_true, Bool.true_and, List.any_eq_true, decide_eq_true_eq]
    exact ⟨entry, List.mem_map.mpr ⟨_, member, rfl⟩, posting, listed, same⟩

/-- A term that is all there is in itself is found in every document that contains it. -/
theorem findsAll_of_stable {term : String} (stable : tokenize tables term = [term])
    : FindsAll tables term := by
  intro documents lexicon built id document present inside
  obtain ⟨posted, increasing⟩ := buildIndex_posted built
  obtain ⟨entry, listed, same, postings⟩ := posted _ (mem_occurrences present inside)
  have asked : (queryTerms tables term).contains entry.term = true := by
    rw [queryTerms_of_stable stable, SortedMap.contains_iff, SortedMap.mem_keys_insert]
    exact Or.inl same
  exact mem_candidates present (get?_findEntriesLoop increasing listed asked) postings

/-- The document that is one word is not found by the term of the word if the term is not found in
itself.
-/
theorem mem_tokenize_of_findsAll {text term : String} (emitted : term ∈ tokenize tables text)
    (all : FindsAll tables term)
    : term ∈ tokenize tables term := by
  obtain ⟨filled, word, listed, whole⟩ := mem_tokenize.mp emitted
  have terms := tokenize_word listed (by rw [whole]; simpa using filled)
  rw [whole, String.ofList_toList] at terms
  let document : StagedDocument := { layer := .semantic, fields := [String.ofList word] }
  have inside : document.terms tables = [term] := by
    simp [StagedDocument.terms, document, terms]
  have counted : occurrences tables [document] = [{ term, documentId := 0 }] := by
    simp [occurrences, inside]
  have built
      : buildIndex tables [document]
        = some [{ term, postings := [{ documentId := 0, termFrequency := 1 }] }] := by
    rw [buildIndex, counted, List.mergeSort_singleton]
    rfl
  have contained : term ∈ document.terms tables := by
    rw [inside]
    exact List.mem_singleton_self _
  have found := all [document] _ built 0 document rfl contained
  by_contra absent
  have unasked : (queryTerms tables term).contains term = false := by
    rw [Bool.eq_false_iff]
    exact fun asked => absent (mem_queryTerms asked)
  have nothing
      : findLexiconEntries [{ term, postings := [{ documentId := 0, termFrequency := 1 }] }]
          (queryTerms tables term)
        = .empty := by
    rw [findLexiconEntries, findEntriesLoop, if_neg (by simp [unasked])]
    split <;> rfl
  rw [candidates, nothing] at found
  simp [SortedMap.empty] at found

end Index

-- Stable terms

/-- Every term is inhabited and fits, and it is found wherever it is contained exactly if it is all
there is in itself. That is so for the terms of a text exactly if all that is kept of its words are
term characters.
-/
theorem tokenize_stable_iff {tables : CharTables} (settled : Settled tables) (text : String)
    : (∀ term ∈ tokenize tables text,
        term ≠ "" ∧ byteLength term.toList ≤ maxTermBytes
        ∧ (FindsAll tables term ↔ tokenize tables term = [term]))
      ∧ ((∀ term ∈ tokenize tables text, tokenize tables term = [term])
        ↔ ∀ word ∈ words tables text.toList,
            ∀ character ∈ wordTerm tables word, isTermCharacter tables character = true) := by
  refine ⟨?_, ?_, ?_⟩
  · intro term emitted
    obtain ⟨filled, word, -, whole⟩ := mem_tokenize.mp emitted
    obtain ⟨-, again⟩ := mem_tokenize_self_iff settled emitted
    refine ⟨filled, ?_, fun all => again.mp (mem_tokenize_of_findsAll emitted all),
      findsAll_of_stable⟩
    rw [← whole]
    exact byteLength_fitting _ _
  · intro stable word listed character inside
    have emitted : String.ofList (wordTerm tables word) ∈ tokenize tables text := by
      refine mem_tokenize.mpr ⟨?_, word, listed, by rw [String.toList_ofList]⟩
      intro empty
      rw [← String.toList_ofList (l := wordTerm tables word), empty] at inside
      cases inside
    obtain ⟨made, again⟩ := mem_tokenize_self_iff settled emitted
    refine made.mp (again.mpr (stable _ emitted)) character ?_
    rwa [String.toList_ofList]
  · intro made term emitted
    obtain ⟨-, word, listed, whole⟩ := mem_tokenize.mp emitted
    have characters
        : ∀ character ∈ term.toList, isTermCharacter tables character = true := by
      rw [← whole]
      exact made word listed
    obtain ⟨self, again⟩ := mem_tokenize_self_iff settled emitted
    exact again.mp (self.mpr characters)

/-- Tables with the capital letters `I` and `İ`; the second one takes two characters in lower case,
of which one is a mark.
-/
def dottedTables : CharTables where
  isAlphanumeric character := character.isAlphanum || character = 'İ'
  toLowercase character :=
    if character = 'İ' then ['i', '\u0307'] else if character = 'I' then ['i'] else [character]

theorem dottedTables_settled : Settled dottedTables := by
  intro character lowercase inside
  simp only [dottedTables] at inside ⊢
  split at inside
  · rcases List.mem_pair.mp inside with rfl | rfl <;> decide
  · next dotless =>
      split at inside
      · rw [List.mem_singleton.mp inside]
        decide
      · next small =>
          rw [List.mem_singleton.mp inside, if_neg dotless, if_neg small]

theorem tokenize_stable_get
    : (FindsAll dottedTables "get_id" ↔ tokenize dottedTables "get_id" = ["get_id"])
      ∧ tokenize dottedTables "get_id" = ["get_id"] := by
  have stable := tokenize_stable_iff dottedTables_settled "get_Id"
  have emitted : "get_id" ∈ tokenize dottedTables "get_Id" := by decide
  have words_stable
      : ∀ word ∈ words dottedTables "get_Id".toList,
          (wordTerm dottedTables word).all (isTermCharacter dottedTables) = true := by
    decide
  exact ⟨(stable.1 _ emitted).2.2,
    stable.2.mpr (fun word found => List.all_eq_true.mp (words_stable word found)) _ emitted⟩

/-- The term of `İ` is not found by searching for it. -/
theorem tokenize_unstable_dotted
    : ¬∀ text, ∀ term ∈ tokenize dottedTables text,
        term ≠ "" ∧ byteLength term.toList ≤ maxTermBytes
        ∧ tokenize dottedTables term = [term] ∧ FindsAll dottedTables term := by
  intro stable
  have again := (stable "İ" "i\u0307" (by decide)).2.2.1
  exact absurd again (by decide)

end CodebaseGraph.Search
