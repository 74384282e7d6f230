import CodebaseGraph.Storage.DirectAtomic

/-! What a direct publication leaves beside the published bundle. The candidates, the journal and
the shadows of the database and of the manifest are always gone; a sidecar's shadow is removed
only when the sidecar is replaced again.
-/

namespace CodebaseGraph.Storage.Direct

open CodebaseGraph.Crash Program

variable {Bytes : Type}

/-- From a state that satisfies `pre`, a program that returns satisfies `post`. -/
abbrev Returns {α : Type} (pre : DirectFiles Bytes → Prop) (program : DirectDisk Bytes α)
    (post : α → DirectFiles Bytes → Prop)
    : Prop :=
  Ensures pre (fun _ _ => True) program post (fun _ _ => True)

/-- A property of the files that does not look at the changed ones, nor at the journal. -/
def Ignores (changed : DirectPath → Prop) (holds : DirectFiles Bytes → Prop) : Prop :=
  ∀ before after,
    (∀ path, ¬changed path → after.file path = before.file path) → holds before → holds after

theorem Ignores.mono {changed fewer : DirectPath → Prop} {holds : DirectFiles Bytes → Prop}
    (ignores : Ignores changed holds) (inside : ∀ path, fewer path → changed path)
    : Ignores fewer holds :=
  fun before after same =>
    ignores before after (fun path outside => same path (fun there => outside (inside path there)))

-- Single steps

section Steps

variable {holds : DirectFiles Bytes → Prop}

theorem readFile_returns (path : DirectPath)
    : Returns holds (readFile path)
        (fun bytes files => holds files ∧ files.file path = some bytes) := by
  refine .observe ?_ (fun _ _ _ _ => trivial) (fun _ fault _ => fault.elim)
  intro files bytes start answer
  split at answer
  · next found =>
      simp only [Except.ok.injEq] at answer
      exact ⟨start, answer ▸ found⟩
  · simp at answer

theorem ensureRegularFile_returns (path : DirectPath)
    : Returns holds (ensureRegularFile path)
        (fun _ files => holds files ∧ (files.file path).isSome = true) :=
  .bind _ (readFile_returns path) (fun _ => .ret (fun _ read => ⟨read.1, by simp [read.2]⟩))

theorem effect_returns {write : DirectFiles Bytes → DirectFiles Bytes}
    {post : Unit → DirectFiles Bytes → Prop}
    (done : ∀ files, holds files → post () (write files))
    : Returns holds (effect Empty.elim write) post :=
  effect_ensures (fun _ _ => trivial) done

theorem renameFile_returns {source target : DirectPath}
    {post : Unit → DirectFiles Bytes → Prop}
    (done : ∀ files, holds files → post () (files.rename source target))
    : Returns holds (renameFile source target) post :=
  .bind _ (readFile_returns source) (fun _ => effect_returns (fun files read => done files read.1))

theorem removeIfSafeIfPresent_returns {path : DirectPath}
    (ignores : Ignores (· = path) holds)
    : Returns holds (removeIfSafeIfPresent path)
        (fun _ files => holds files ∧ files.file path = none) := by
  refine removeIfSafeIfPresent_ensures (fun _ _ => trivial) ?_
  intro files start
  refine ignores files _ (fun other different => ?_) start
  simp [DirectFiles.remove, different]

theorem sha256Path_returns (sha256 : Bytes → String) (path : DirectPath)
    : Returns holds (sha256Path sha256 path) (fun _ => holds) :=
  .bind _ (readFile_returns path) (fun _ => .ret (fun _ read => read.1))

theorem validateChecksum_returns (sha256 : Bytes → String) (display : DirectPath → String)
    (path : DirectPath) (expected label : String)
    : Returns holds (validateChecksum sha256 display path expected label) (fun _ => holds) := by
  refine .bind _ (sha256Path_returns sha256 path) (fun digest => ?_)
  split
  · exact .ret (fun _ start => start)
  · exact .raise (fun _ _ => trivial)

theorem validateSidecarChecksums_returns (sha256 : Bytes → String)
    (display : DirectPath → String) (path : DirectPath) (checksums : List (String × String))
    : Returns holds (validateSidecarChecksums sha256 display path checksums) (fun _ => holds) :=
  .forM (fun _ => holds) (fun _ _ _ => validateChecksum_returns sha256 display _ _ _)

/-- The journal is no file that the property looks at. -/
theorem Ignores.journal {changed : DirectPath → Prop} (ignores : Ignores changed holds)
    (journal : Option DirectPublishJournal)
    : Returns holds (effect Empty.elim (fun files => { files with journal })) (fun _ => holds) :=
  effect_returns (fun files start => ignores files _ (fun _ _ => rfl) start)

end Steps

-----------------------------------------------------------------------------------------
-- Replacing one file
-----------------------------------------------------------------------------------------

/-- The paths that the replacement of a file touches. -/
def Replaced (source target path : DirectPath) : Prop :=
  path = source ∨ path = target ∨ path = .shadow target

/-- What a replacement leaves at the shadow: the replaced file, or what was there before if there
was nothing to put in place.
-/
def shadowAfter (files : DirectFiles Bytes) (source target : DirectPath) : Option Bytes :=
  if (files.file source).isSome then files.file target else files.file (.shadow target)

theorem ne_shadow (path : DirectPath) : path ≠ .shadow path := fun same => by
  have smaller := congrArg sizeOf same
  simp at smaller

/-- The replacement when there is something to put in place. -/
theorem moveIn_returns {source target : DirectPath} {holds : DirectFiles Bytes → Prop}
    (distinct : source ≠ target) (apart : source ≠ .shadow target)
    (ignores : Ignores (Replaced source target) holds) (left : Option Bytes)
    : Returns (fun files => holds files ∧ files.file target = left)
        (ensureRegularFile source >>= fun _ =>
          removeIfSafeIfPresent (.shadow target) >>= fun _ =>
            moveAside target >>= fun _ => renameFile source target)
        (fun _ files =>
          holds files ∧ files.file source = none ∧ files.file (.shadow target) = left) := by
  have beside := ne_shadow target
  refine .bind _ (ensureRegularFile_returns source) (fun _ => ?_)
  refine .bind _ (.given (removeIfSafeIfPresent_returns ?_) (fun _ seen => seen.1)) (fun _ => ?_)
  · rintro before after same ⟨kept, shadow⟩
    refine ⟨ignores before after (fun path outside => ?_) kept, ?_⟩
    · exact same path (fun shadowed => outside (Or.inr (Or.inr shadowed)))
    · rw [same target beside, shadow]
  -- What stood at the target is now at its shadow.
  refine .bind (fun _ files => holds files ∧ files.file (.shadow target) = left) ?_ (fun _ => ?_)
  · refine .bind _ (pathExists_ensures target) (fun occupied => ?_)
    cases occupied with
    | true =>
        refine renameFile_returns (fun files seen => ?_)
        obtain ⟨⟨⟨kept, shadow⟩, _⟩, _⟩ := seen
        refine ⟨ignores files _ (fun path outside => ?_) kept, ?_⟩
        · obtain ⟨-, notTarget, notShadow⟩ := not_or.mp outside |>.imp id not_or.mp
          simp [DirectFiles.rename, notTarget, notShadow]
        · simpa [DirectFiles.rename] using shadow
    | false =>
        refine .ret (fun files seen => ?_)
        obtain ⟨⟨⟨kept, shadow⟩, absent⟩, missing⟩ := seen
        have empty : files.file target = none := by simpa using missing.symm
        exact ⟨kept, by rw [absent, ← shadow, empty]⟩
  · refine renameFile_returns (fun files seen => ?_)
    obtain ⟨kept, shadow⟩ := seen
    refine ⟨ignores files _ (fun path outside => ?_) kept, ?_, ?_⟩
    · obtain ⟨notSource, notTarget, -⟩ := not_or.mp outside |>.imp id not_or.mp
      simp [DirectFiles.rename, notSource, notTarget]
    · simp [DirectFiles.rename, distinct]
    · simpa [DirectFiles.rename, beside.symm, apart.symm] using shadow

theorem replaceWithShadow_returns (display : DirectPath → String) {source target : DirectPath}
    {holds : DirectFiles Bytes → Prop} (distinct : source ≠ target)
    (apart : source ≠ .shadow target) (ignores : Ignores (Replaced source target) holds)
    (left : Option Bytes)
    : Returns (fun files => holds files ∧ shadowAfter files source target = left)
        (replaceWithShadow display source target)
        (fun _ files =>
          holds files ∧ files.file source = none ∧ files.file (.shadow target) = left) := by
  refine .bind _ (pathExists_ensures source) (fun found => ?_)
  cases found with
  | false =>
      refine .bind _ (pathExists_ensures target) (fun arrived => ?_)
      cases arrived with
      | false => exact .raise (fun _ _ => trivial)
      | true =>
          refine .ret (fun files seen => ?_)
          obtain ⟨⟨⟨kept, shadow⟩, missing⟩, _⟩ := seen
          have gone : files.file source = none := by simpa using missing.symm
          rw [shadowAfter, gone] at shadow
          exact ⟨kept, gone, by simpa using shadow⟩
  | true =>
      refine (moveIn_returns distinct apart ignores left).given (fun files seen => ?_)
      obtain ⟨⟨kept, shadow⟩, present⟩ := seen
      rw [shadowAfter, ← present, if_pos rfl] at shadow
      exact ⟨kept, shadow⟩

/-- A replacement keeps what does not look at its paths, and takes the file from its source. -/
theorem replaceWithShadow_takes (display : DirectPath → String) {source target : DirectPath}
    {holds : DirectFiles Bytes → Prop} (distinct : source ≠ target)
    (apart : source ≠ .shadow target) (ignores : Ignores (Replaced source target) holds)
    : Returns holds (replaceWithShadow display source target)
        (fun _ files => holds files ∧ files.file source = none) := by
  refine .each (fun start kept => ?_)
  refine ((replaceWithShadow_returns display distinct apart ignores
    (shadowAfter start source target)).given ?_).concluding ?_
  · rintro files rfl
    exact ⟨kept, rfl⟩
  · exact fun _ files seen => ⟨seen.1, seen.2.1⟩

-- Promoting the database

/-- The paths of one sidecar that its promotion touches. -/
def PromotesSidecar (suffix : String) : DirectPath → Prop :=
  Replaced (.sidecar (.candidate .database) suffix) (.sidecar .database suffix)

/-- The paths that the promotion of the database touches. -/
def Promotes (path : DirectPath) : Prop :=
  Replaced (.candidate .database) .database path ∨ ∃ suffix, PromotesSidecar suffix path

/-- The journal names the paths of the layout. -/
def AtLayout (journal : DirectPublishJournal) : Prop :=
  journal.dbPath = .database
  ∧ journal.dbCandidatePath = .candidate .database
  ∧ journal.manifestPath = .manifest
  ∧ journal.manifestCandidatePath = .candidate .manifest

section Promotion

variable {sha256 : Bytes → String} {display : DirectPath → String}
  {journal : DirectPublishJournal} {holds : DirectFiles Bytes → Prop}

theorem promoteSidecar_keeps (layout : AtLayout journal) {suffix : String}
    (ignores : Ignores (PromotesSidecar suffix) holds)
    : Returns holds (promoteSidecar display journal suffix) (fun _ => holds) := by
  obtain ⟨database, candidate, -, -⟩ := layout
  unfold promoteSidecar
  rw [database, candidate]
  split
  · refine .bind _ (replaceWithShadow_takes display (by simp) (by simp) ignores) (fun _ => ?_)
    exact (ensureRegularFile_returns _).concluding (fun _ _ seen => seen.1.1)
  · refine (removeIfSafeIfPresent_returns ?_).concluding (fun _ _ seen => seen.1)
    exact ignores.mono (fun path same => Or.inr (Or.inl same))

theorem promoteDatabaseBundle_takes (layout : AtLayout journal) (ignores : Ignores Promotes holds)
    : Returns holds (promoteDatabaseBundle display journal)
        (fun _ files => holds files ∧ files.file (.candidate .database) = none) := by
  unfold promoteDatabaseBundle
  rw [layout.1, layout.2.1]
  refine .bind _ (replaceWithShadow_takes display (by simp) (by simp)
    (ignores.mono (fun _ inside => Or.inl inside))) (fun _ => ?_)
  refine .forM (fun _ files => holds files ∧ files.file (.candidate .database) = none)
    (fun suffix _ _ => promoteSidecar_keeps layout ?_)
  rintro before after same ⟨kept, gone⟩
  refine ⟨ignores before after (fun path outside => same path (fun inside => ?_)) kept, ?_⟩
  · exact outside (Or.inr ⟨suffix, inside⟩)
  · rw [same _ (by simp [PromotesSidecar, Replaced]), gone]

-- Resuming a publication

theorem resumePrepared_takes (layout : AtLayout journal)
    (database : journal.phase = .prepared → Ignores Promotes holds)
    (still : Ignores (fun _ => False) holds)
    : Returns holds (resumePrepared sha256 display journal)
        (fun next files =>
          holds files
          ∧ AtLayout next
          ∧ (journal.phase ≠ .prepared → next = journal)
          ∧ (journal.phase = .prepared
            → next.phase = .databasePromoted ∧ files.file (.candidate .database) = none)) := by
  unfold resumePrepared
  split
  · next prepared =>
      have taken : Ignores (fun _ => False)
          (fun files : DirectFiles Bytes =>
            holds files ∧ files.file (.candidate .database) = none) :=
        fun before after same kept =>
          ⟨still before after same kept.1, by rw [same _ id, kept.2]⟩
      refine .bind _ (promoteDatabaseBundle_takes layout (database prepared)) (fun _ => ?_)
      refine .bind _ (validateChecksum_returns _ _ _ _ _) (fun _ => ?_)
      refine .bind _ (validateSidecarChecksums_returns _ _ _ _) (fun _ => ?_)
      refine .bind _ (taken.journal _) (fun _ => .ret (fun files kept => ?_))
      exact ⟨kept.1, layout, fun other => absurd prepared other, fun _ => ⟨rfl, kept.2⟩⟩
  · next other =>
      exact .ret (fun files kept =>
        ⟨kept, layout, fun _ => rfl, fun prepared => absurd prepared other⟩)

/-- What follows the promotion of the database takes the manifest from its candidate, if that
is still to be done.
-/
theorem resumeManifest_takes (layout : AtLayout journal)
    (manifest
      : journal.phase = .databasePromoted
        → Ignores (Replaced (.candidate .manifest) .manifest) holds)
    (still : Ignores (fun _ => False) holds)
    : Returns holds
        (resumeDatabaseChecks sha256 display journal >>= fun _ =>
          resumeDatabasePromoted sha256 display journal >>= fun next =>
            resumeManifestChecks sha256 display next >>= fun _ => resumeManifestPromoted next)
        (fun _ files =>
          holds files
          ∧ (journal.phase = .databasePromoted
            → files.file (.candidate .manifest) = none)) := by
  have taken : Ignores (fun _ => False)
      (fun files : DirectFiles Bytes =>
        holds files
        ∧ (journal.phase = .databasePromoted → files.file (.candidate .manifest) = none)) :=
    fun before after same kept =>
      ⟨still before after same kept.1, fun reached => by rw [same _ id, kept.2 reached]⟩
  refine .bind (fun _ => holds) ?_ (fun _ => ?_)
  · unfold resumeDatabaseChecks
    split
    · exact .bind _ (validateChecksum_returns _ _ _ _ _)
        (fun _ => validateSidecarChecksums_returns _ _ _ _)
    · exact .ret (fun _ kept => kept)
  refine .bind _ (?_ : Returns holds (resumeDatabasePromoted sha256 display journal)
    (fun _ files =>
      holds files
      ∧ (journal.phase = .databasePromoted → files.file (.candidate .manifest) = none)))
    (fun next => ?_)
  · unfold resumeDatabasePromoted
    rw [layout.2.2.1, layout.2.2.2]
    split
    · next promoted =>
        refine .bind _ (replaceWithShadow_takes display (by simp) (by simp) (manifest promoted))
          (fun _ => ?_)
        refine .bind _ (validateChecksum_returns _ _ _ _ _) (fun _ => ?_)
        refine .bind _ (?_ : Returns _ _ (fun _ files =>
          holds files ∧ files.file (.candidate .manifest) = none)) (fun _ => .ret ?_)
        · exact effect_returns (fun files kept =>
            ⟨still files _ (fun _ _ => rfl) kept.1, kept.2⟩)
        · exact fun files kept => ⟨kept.1, fun _ => kept.2⟩
    · next other => exact .ret (fun files kept => ⟨kept, fun promoted => absurd promoted other⟩)
  refine .bind _ (?_ : Returns _ _ (fun _ files =>
    holds files
    ∧ (journal.phase = .databasePromoted → files.file (.candidate .manifest) = none)))
    (fun _ => ?_)
  · unfold resumeManifestChecks
    split
    · exact validateChecksum_returns _ _ _ _ _
    · exact .ret (fun _ kept => kept)
  · unfold resumeManifestPromoted
    split
    · exact taken.journal _
    · exact .ret (fun _ kept => kept)

end Promotion

-----------------------------------------------------------------------------------------
-- Recovering
-----------------------------------------------------------------------------------------

section Recovery

variable {sha256 : Bytes → String} {display : DirectPath → String}

theorem removeJournalAndShadows_keeps {holds : DirectFiles Bytes → Prop}
    (ignores : Ignores (fun path => path = .shadow .database ∨ path = .shadow .manifest) holds)
    : Returns holds removeJournalAndShadows
        (fun _ files =>
          holds files
          ∧ files.journal = none
          ∧ files.file (.shadow .database) = none
          ∧ files.file (.shadow .manifest) = none) := by
  refine .bind (fun _ files => holds files ∧ files.journal = none) ?_ (fun _ => ?_)
  · refine .bind _ readJournal_ensures (fun shown => ?_)
    split
    · exact effect_returns (fun files seen =>
        ⟨ignores files _ (fun _ _ => rfl) seen.1, rfl⟩)
    · next absent =>
        refine .ret (fun files seen => ⟨seen.1, ?_⟩)
        simpa [seen.2] using absent
  refine .bind (fun _ files =>
    (holds files ∧ files.journal = none) ∧ files.file (.shadow .database) = none) ?_
    (fun _ => ?_)
  · refine removeIfSafeIfPresent_ensures (fun _ _ => trivial) ?_
    rintro files ⟨kept, gone⟩
    refine ⟨ignores files _ (fun path outside => ?_) kept, gone⟩
    have different : path ≠ .shadow .database := fun same => outside (Or.inl same)
    simp [DirectFiles.remove, different]
  refine (removeIfSafeIfPresent_ensures (fun _ _ => trivial) ?_).concluding ?_
  · rintro files ⟨⟨kept, gone⟩, empty⟩
    refine ⟨⟨ignores files _ (fun path outside => ?_) kept, gone⟩, ?_⟩
    · have different : path ≠ .shadow .manifest := fun same => outside (Or.inr same)
      simp [DirectFiles.remove, different]
    · simp [DirectFiles.remove, empty]
  · rintro _ files ⟨⟨⟨kept, gone⟩, empty⟩, last⟩
    exact ⟨kept, gone, empty, last⟩

/-- The files that belong to one sidecar are those of another state. -/
def SameSidecar (start : DirectFiles Bytes) (suffix : String) (files : DirectFiles Bytes) : Prop :=
  ∀ path, PromotesSidecar suffix path → files.file path = start.file path

/-- After a recovery the sidecars are as they were, or a candidate has been taken away. -/
def Recovered (start files : DirectFiles Bytes) : Prop :=
  (∀ suffix, SameSidecar start suffix files)
  ∨ files.file (.candidate .database) = none
  ∨ files.file (.candidate .manifest) = none

theorem Recovered.of_same {start before after : DirectFiles Bytes}
    (same
      : ∀ path,
          ¬(path = .shadow .database ∨ path = .shadow .manifest)
          → after.file path = before.file path)
    (recovered : Recovered start before)
    : Recovered start after := by
  rcases recovered with sidecars | gone | gone
  · refine Or.inl (fun suffix path inside => ?_)
    rw [same path ?_, sidecars suffix path inside]
    rcases inside with rfl | rfl | rfl <;> simp
  · exact Or.inr (Or.inl (by rw [same _ (by simp), gone]))
  · exact Or.inr (Or.inr (by rw [same _ (by simp), gone]))

/-- A publication that is resumed after its database takes nothing of the sidecars; one that is
resumed earlier takes the candidates.
-/
theorem resumePublish_recovered {journal : DirectPublishJournal} (layout : AtLayout journal)
    (start : DirectFiles Bytes)
    : Returns (· = start) (resumePublish sha256 display journal)
        (fun _ => Recovered start) := by
  by_cases prepared : journal.phase = .prepared
  · -- The candidate of the database is gone once its promotion ends.
    have taken
        : Returns (fun _ => True) (resumePrepared sha256 display journal)
            (fun next (files : DirectFiles Bytes) =>
              True
              ∧ AtLayout next
              ∧ (journal.phase ≠ .prepared → next = journal)
              ∧ (journal.phase = .prepared
                → next.phase = .databasePromoted ∧ files.file (.candidate .database) = none)) :=
      resumePrepared_takes layout (fun _ _ _ _ _ => trivial) (fun _ _ _ _ => trivial)
    refine .bind _ (taken.given (fun _ _ => trivial)) (fun next => ?_)
    refine .assuming (AtLayout next) (fun _ seen => seen.2.1) (fun following => ?_)
    refine (Ensures.given (resumeManifest_takes following (fun _ => ?_) ?_)
      (fun files seen => (seen.2.2.2 prepared).2)).concluding
      (fun _ files seen => Or.inr (Or.inl seen.1))
    · exact fun before after same gone => by rw [same _ (by simp [Replaced]), gone]
    · exact fun before after same gone => by rw [same _ id, gone]
  · have still : Ignores (fun _ => False)
        (fun files : DirectFiles Bytes => ∀ suffix, SameSidecar start suffix files) :=
      fun before after same kept suffix path inside => by
        rw [same path id, kept suffix path inside]
    refine .bind _ (.given (resumePrepared_takes layout (fun early => absurd early prepared) still)
      ?_) (fun next => ?_)
    · rintro files rfl suffix path -
      rfl
    refine .assuming (next = journal) (fun _ seen => seen.2.2.1 prepared) ?_
    rintro rfl
    refine (Ensures.given (resumeManifest_takes layout (fun _ => ?_) still)
      (fun files seen => seen.1)).concluding (fun _ files seen => Or.inl seen.1)
    intro before after same kept suffix path inside
    rw [same path ?_, kept suffix path inside]
    rcases inside with rfl | rfl | rfl <;> simp [Replaced]

theorem atLayout_of_validated {journal : DirectPublishJournal}
    (destinations : validateJournalDestinations journal = .ok ())
    (sources : validateJournalSources journal = .ok ())
    : AtLayout journal := by
  unfold validateJournalDestinations at destinations
  unfold validateJournalSources at sources
  split at destinations
  · cases destinations
  · next right =>
      split at sources
      · cases sources
      · next expected =>
          simp only [not_or, not_not] at right expected
          exact ⟨right.1, expected.1, right.2, expected.2.1⟩

theorem recoverWithLock_recovered (start : DirectFiles Bytes)
    : Returns (· = start) (recoverWithLock sha256 display)
        (fun _ files => Recovered start files ∧ files.journal = none) := by
  refine .bind _ readJournal_ensures (fun shown => ?_)
  cases shown with
  | none =>
      refine .ret (fun files seen => ⟨Or.inl (fun suffix path _ => by rw [seen.1]), ?_⟩)
      exact seen.2.symm
  | some journal =>
      refine .bind (fun _ files =>
        files = start ∧ validateJournalDestinations journal = .ok ())
        (.ofExcept (fun _ _ seen right => ⟨seen.1, right⟩) (fun _ _ _ _ => trivial))
        (fun _ => ?_)
      refine .bind (fun _ files => files = start ∧ AtLayout journal)
        (.ofExcept (fun _ _ seen right => ⟨seen.1, atLayout_of_validated seen.2 right⟩)
          (fun _ _ _ _ => trivial)) (fun _ => ?_)
      refine .assuming (AtLayout journal) (fun _ seen => seen.2) (fun layout => ?_)
      refine .bind _ ((resumePublish_recovered layout start).given (fun _ seen => seen.1))
        (fun _ => ?_)
      refine (removeJournalAndShadows_keeps ?_).concluding (fun _ files seen => ⟨seen.1, seen.2.1⟩)
      exact fun before after same recovered => recovered.of_same same

end Recovery

-----------------------------------------------------------------------------------------
-- The shadows of the sidecars
-----------------------------------------------------------------------------------------

/-- The shadow of a sidecar holds what its replacement leaves there. -/
def ShadowLeft (start : DirectFiles Bytes) (suffix : String) (files : DirectFiles Bytes) : Prop :=
  files.file (.shadow (.sidecar .database suffix))
  = shadowAfter start (.sidecar (.candidate .database) suffix) (.sidecar .database suffix)

/-- The sidecars still to be promoted are untouched, and the others have left their shadows. -/
def Tracking (start : DirectFiles Bytes) (pending : List String) (files : DirectFiles Bytes)
    : Prop :=
  (∀ suffix ∈ pending, SameSidecar start suffix files)
  ∧ ∀ suffix ∈ directDbSidecarSuffixes, suffix ∉ pending → ShadowLeft start suffix files

/-- What a promotion has left once every sidecar has had its turn. -/
def ShadowsLeft (start files : DirectFiles Bytes) : Prop :=
  ∀ suffix ∈ directDbSidecarSuffixes, ShadowLeft start suffix files

theorem shadowsLeft_ignores (start : DirectFiles Bytes)
    : Ignores (fun path => ∀ suffix, path ≠ .shadow (.sidecar .database suffix))
        (ShadowsLeft start) := by
  intro before after same left suffix inside
  have kept : after.file (.shadow (.sidecar .database suffix))
      = before.file (.shadow (.sidecar .database suffix)) :=
    same _ (fun every => every suffix rfl)
  rw [ShadowLeft, kept]
  exact left suffix inside

/-- What `Tracking` says of the sidecars other than the one whose turn it is. -/
def TrackingOthers (start : DirectFiles Bytes) (item : String) (rest : List String)
    (files : DirectFiles Bytes)
    : Prop :=
  (∀ suffix ∈ rest, SameSidecar start suffix files)
  ∧ ∀ suffix ∈ directDbSidecarSuffixes, suffix ∉ item :: rest → ShadowLeft start suffix files

theorem Tracking.others {start files : DirectFiles Bytes} {item : String} {rest : List String}
    (tracking : Tracking start (item :: rest) files)
    : TrackingOthers start item rest files :=
  ⟨fun suffix inside => tracking.1 suffix (.tail _ inside), tracking.2⟩

theorem TrackingOthers.tracking {start files : DirectFiles Bytes} {item : String}
    {rest : List String} (others : TrackingOthers start item rest files)
    (left : ShadowLeft start item files)
    : Tracking start rest files := by
  refine ⟨others.1, fun suffix inside outside => ?_⟩
  by_cases equal : suffix = item
  · exact equal ▸ left
  · exact others.2 suffix inside (by simp [equal, outside])

theorem trackingOthers_ignores (start : DirectFiles Bytes) {item : String} {rest : List String}
    (fresh : item ∉ rest)
    : Ignores (PromotesSidecar item) (TrackingOthers start item rest) := by
  rintro before after same ⟨waiting, left⟩
  refine ⟨fun suffix inside path touched => ?_, fun suffix known outside => ?_⟩
  · have different : suffix ≠ item := fun equal => fresh (equal ▸ inside)
    rw [same path ?_, waiting suffix inside path touched]
    rcases touched with rfl | rfl | rfl <;> simp [PromotesSidecar, Replaced, different]
  · have different : suffix ≠ item := fun equal => outside (equal ▸ List.mem_cons_self)
    rw [ShadowLeft, same _ (by simp [PromotesSidecar, Replaced, different])]
    exact left suffix known outside

/-- The journal lists exactly the sidecars that the candidate has. -/
def ListsSidecars (start : DirectFiles Bytes) (checksums : List (String × String)) : Prop :=
  ∀ suffix ∈ directDbSidecarSuffixes,
    checksums.any (fun entry => entry.1 = suffix)
    = (start.file (.sidecar (.candidate .database) suffix)).isSome

section Publication

variable {sha256 : Bytes → String} {display : DirectPath → String}
  {journal : DirectPublishJournal} {start files : DirectFiles Bytes}

theorem shadowAfter_of_same {suffix : String}
    (same : SameSidecar start suffix files)
    : shadowAfter files (.sidecar (.candidate .database) suffix) (.sidecar .database suffix)
      = shadowAfter start (.sidecar (.candidate .database) suffix)
          (.sidecar .database suffix) := by
  simp only [shadowAfter, same _ (Or.inl rfl), same _ (Or.inr (Or.inl rfl)),
    same _ (Or.inr (Or.inr rfl))]

theorem promoteSidecar_tracks (layout : AtLayout journal)
    (lists : ListsSidecars start journal.sidecarSha256) {item : String} {rest : List String}
    (known : item ∈ directDbSidecarSuffixes) (fresh : item ∉ rest)
    : Returns (Tracking start (item :: rest)) (promoteSidecar display journal item)
        (fun _ => Tracking start rest) := by
  have others := trackingOthers_ignores start fresh
  unfold promoteSidecar
  rw [layout.1, layout.2.1, lists item known]
  split
  · refine .bind _ ((replaceWithShadow_returns display (by simp) (by simp) others
      (shadowAfter start (.sidecar (.candidate .database) item)
        (.sidecar .database item))).given ?_) (fun _ => ?_)
    · exact fun files tracking =>
        ⟨tracking.others, shadowAfter_of_same (tracking.1 item List.mem_cons_self)⟩
    · exact (ensureRegularFile_returns _).concluding
        (fun _ files seen => seen.1.1.tracking seen.1.2.2)
  · next missing =>
      have absent : start.file (.sidecar (.candidate .database) item) = none := by
        simpa using missing
      -- A sidecar that the candidate lacks is removed, and its shadow stays what it was.
      have kept
          : Ignores (· = .sidecar .database item)
              (fun files => TrackingOthers start item rest files ∧ ShadowLeft start item files) := by
        rintro before after same ⟨tracked, left⟩
        refine ⟨others before after (fun path outside => same path (fun equal => ?_)) tracked, ?_⟩
        · exact outside (Or.inr (Or.inl equal))
        · rw [ShadowLeft, same _ (by simp)]
          exact left
      refine ((removeIfSafeIfPresent_returns kept).given (fun files tracking => ?_)).concluding
        (fun _ files seen => seen.1.1.tracking seen.1.2)
      refine ⟨tracking.others, ?_⟩
      rw [ShadowLeft, shadowAfter, absent]
      exact tracking.1 item List.mem_cons_self _ (Or.inr (Or.inr rfl))

theorem promoteDatabaseBundle_tracks (layout : AtLayout journal)
    (lists : ListsSidecars start journal.sidecarSha256)
    : Returns (fun files => ∀ suffix, SameSidecar start suffix files)
        (promoteDatabaseBundle display journal) (fun _ => ShadowsLeft start) := by
  have distinct : directDbSidecarSuffixes.Nodup := by decide
  unfold promoteDatabaseBundle
  rw [layout.1, layout.2.1]
  refine .bind (fun _ => Tracking start directDbSidecarSuffixes) ?_ (fun _ => ?_)
  · refine (replaceWithShadow_takes display (by simp) (by simp) ?_).concluding ?_
    · intro before after same kept suffix path inside
      rw [same path ?_, kept suffix path inside]
      rcases inside with rfl | rfl | rfl <;> simp [Replaced]
    · exact fun _ files seen =>
        ⟨fun suffix _ => seen.1 suffix, fun suffix inside outside => absurd inside outside⟩
  · refine (Ensures.forM (fun pending => Tracking start pending) (fun item rest tail => ?_))
      |>.concluding (fun _ files tracked suffix inside => tracked.2 suffix inside (by simp))
    have fresh := (List.nodup_cons.mp (distinct.sublist tail.sublist)).1
    exact promoteSidecar_tracks layout lists (tail.subset List.mem_cons_self) fresh

theorem resumePublish_leaves (layout : AtLayout journal) (prepared : journal.phase = .prepared)
    (lists : ListsSidecars start journal.sidecarSha256)
    : Returns (fun files => ∀ suffix, SameSidecar start suffix files)
        (resumePublish sha256 display journal) (fun _ => ShadowsLeft start) := by
  have ignores := shadowsLeft_ignores start
  have still : Ignores (fun _ => False) (ShadowsLeft start) :=
    ignores.mono (fun _ never => never.elim)
  refine .bind (fun next files => ShadowsLeft start files ∧ AtLayout next) ?_ (fun next => ?_)
  · unfold resumePrepared
    rw [if_pos prepared]
    refine .bind _ (promoteDatabaseBundle_tracks layout lists) (fun _ => ?_)
    refine .bind _ (validateChecksum_returns _ _ _ _ _) (fun _ => ?_)
    refine .bind _ (validateSidecarChecksums_returns _ _ _ _) (fun _ => ?_)
    exact .bind _ (still.journal _) (fun _ => .ret (fun files left => ⟨left, layout⟩))
  · refine .assuming (AtLayout next) (fun _ seen => seen.2) (fun following => ?_)
    refine (Ensures.given (resumeManifest_takes following (fun _ => ignores.mono ?_) still)
      (fun files seen => seen.1)).concluding (fun _ files seen => seen.1)
    rintro path (rfl | rfl | rfl) suffix <;> simp

theorem cleanupCandidateSet_clears {holds : DirectFiles Bytes → Prop}
    (removed
      : ∀ path,
          path ∈ directBundlePaths (.candidate .database) ∨ path = .candidate .manifest
          → ∀ files, holds files → holds (files.remove path))
    : Returns holds cleanupCandidateSet
        (fun _ files =>
          holds files
          ∧ (∀ path ∈ directBundlePaths (.candidate .database), files.file path = none)
          ∧ files.file (.candidate .manifest) = none) := by
  refine .bind (fun _ files =>
    holds files ∧ ∀ path ∈ directBundlePaths (.candidate .database), files.file path = none)
    ?_ (fun _ => ?_)
  · -- The paths that are no longer pending are gone.
    refine ((Ensures.forM (fun pending files =>
      holds files
      ∧ ∀ path ∈ directBundlePaths (.candidate .database),
          path ∉ pending → files.file path = none) (fun path rest tail => ?_)).given ?_).concluding
      (fun _ files seen => ⟨seen.1, fun path inside => seen.2 path inside (by simp)⟩)
    · have member : path ∈ directBundlePaths (.candidate .database) :=
        tail.subset List.mem_cons_self
      refine (removeIfSafeIfPresent_ensures (fun _ _ => trivial) ?_).concluding ?_
      · rintro files ⟨kept, gone⟩
        refine ⟨removed path (Or.inl member) files kept, fun other inside outside => ?_⟩
        simp [DirectFiles.remove, gone other inside outside]
      · rintro _ files ⟨⟨kept, gone⟩, empty⟩
        refine ⟨kept, fun other inside outside => ?_⟩
        by_cases same : other = path
        · exact same ▸ empty
        · exact gone other inside (by simp [same, outside])
    · exact fun files kept => ⟨kept, fun path inside outside => absurd inside outside⟩
  · refine (removeIfSafeIfPresent_ensures (fun _ _ => trivial) ?_).concluding ?_
    · rintro files ⟨kept, gone⟩
      refine ⟨removed _ (Or.inr rfl) files kept, fun other inside => ?_⟩
      simp [DirectFiles.remove, gone other inside]
    · exact fun _ files seen => ⟨seen.1.1, seen.1.2, seen.2⟩

theorem sidecarChecksums_lists (sidecars : ∀ suffix, SameSidecar start suffix files)
    : Returns (· = files) (sidecarChecksums sha256 (.candidate .database))
        (fun listed after => after = files ∧ ListsSidecars start listed) := by
  refine .bind _ (sidecarChecksumsOf_ensures (.candidate .database) directDbSidecarSuffixes)
    (fun found => .ret ?_)
  rintro after ⟨same, listed⟩
  refine ⟨same, fun suffix inside => ?_⟩
  rw [← sidecars suffix _ (Or.inl rfl), Bool.eq_iff_iff, Option.isSome_iff_exists]
  simp only [List.any_eq_true, List.mem_mergeSort, decide_eq_true_eq, Prod.exists]
  constructor
  · rintro ⟨_, digest, member, rfl⟩
    obtain ⟨content, held, -⟩ := Option.map_eq_some_iff.mp ((listed _ digest).mp member).2
    exact ⟨content, held⟩
  · rintro ⟨content, held⟩
    exact ⟨suffix, sha256 content, (listed _ _).mpr ⟨inside, by rw [held]; rfl⟩, rfl⟩

/-- What lies beside the published bundle when a publication returns. -/
structure Residue (start files : DirectFiles Bytes) : Prop where
  journal : files.journal = none
  candidates : ∀ path ∈ directBundlePaths (.candidate .database), files.file path = none
  manifestCandidate : files.file (.candidate .manifest) = none
  databaseShadow : files.file (.shadow .database) = none
  manifestShadow : files.file (.shadow .manifest) = none
  sidecarShadows : ShadowsLeft start files

theorem journaled_residue (layout : AtLayout journal) (prepared : journal.phase = .prepared)
    (lists : ListsSidecars start journal.sidecarSha256)
    : Returns (fun files => ∀ suffix, SameSidecar start suffix files)
        (writeJournal journal >>= fun _ =>
          resumePublish sha256 display journal >>= fun _ =>
            removeJournalAndShadows >>= fun _ => cleanupCandidateSet)
        (fun _ => Residue start) := by
  have ignores := shadowsLeft_ignores start
  have still : Ignores (fun _ => False)
      (fun files : DirectFiles Bytes => ∀ suffix, SameSidecar start suffix files) :=
    fun before after same kept suffix path inside => by
      rw [same path id, kept suffix path inside]
  refine .bind _ (still.journal _) (fun _ => ?_)
  refine .bind _ (resumePublish_leaves layout prepared lists) (fun _ => ?_)
  refine .bind _ (removeJournalAndShadows_keeps (ignores.mono ?_)) (fun _ => ?_)
  · rintro path (rfl | rfl) suffix <;> simp
  refine (cleanupCandidateSet_clears ?_).concluding ?_
  · -- No candidate is a shadow.
    rintro path candidate files ⟨left, gone, database, manifest⟩
    have apart (target : DirectPath) : .shadow target ≠ path := by
      rintro rfl
      simp [directBundlePaths] at candidate
    refine ⟨ignores files _ (fun other outside => ?_) left, gone, ?_, ?_⟩
    · simp only [not_forall, not_not] at outside
      obtain ⟨suffix, rfl⟩ := outside
      simp [DirectFiles.remove, apart]
    · simpa [DirectFiles.remove, apart] using database
    · simpa [DirectFiles.remove, apart] using manifest
  · rintro _ files ⟨⟨left, gone, database, manifest⟩, candidates, manifestCandidate⟩
    exact ⟨gone, candidates, manifestCandidate, database, manifest, left⟩

theorem publish_residue (start : DirectFiles Bytes)
    : Returns (· = start) (publish sha256 display) (fun _ => Residue start) := by
  refine .bind (fun _ => (· = start)) (.ret (fun _ same => same)) (fun _ => ?_)
  refine .bind _ (recoverWithLock_recovered start) (fun _ => ?_)
  refine .bind _ (ensureRegularFile_returns _) (fun _ => ?_)
  refine .bind _ (ensureRegularFile_returns _) (fun _ => ?_)
  -- Both candidates are there, so the recovery has taken neither.
  have sidecars (files : DirectFiles Bytes)
      (seen
        : ((Recovered start files ∧ files.journal = none)
            ∧ (files.file (.candidate .database)).isSome = true)
          ∧ (files.file (.candidate .manifest)).isSome = true)
      : ∀ suffix, SameSidecar start suffix files := by
    obtain ⟨⟨⟨recovered, -⟩, database⟩, manifest⟩ := seen
    rcases recovered with sidecars | gone | gone
    · exact sidecars
    · simp [gone] at database
    · simp [gone] at manifest
  refine Ensures.given ?_ sidecars
  refine .bind _ (sha256Path_returns sha256 _) (fun dbSha256 => ?_)
  refine .bind _ (sha256Path_returns sha256 _) (fun manifestSha256 => ?_)
  refine .bind (fun listed files =>
    (∀ suffix, SameSidecar start suffix files) ∧ ListsSidecars start listed)
    (.each (fun files same => ?_)) (fun listed => ?_)
  · refine (sidecarChecksums_lists same).concluding ?_
    rintro listed after ⟨rfl, lists⟩
    exact ⟨same, lists⟩
  · refine .assuming _ (fun _ seen => seen.2) (fun lists => ?_)
    exact (journaled_residue ⟨rfl, rfl, rfl, rfl⟩ rfl lists).given (fun _ seen => seen.1)

end Publication

/-- Nothing but the bundle: no candidate, no journal and no shadow. -/
structure Residueless (files : DirectFiles Bytes) : Prop where
  journal : files.journal = none
  candidates : ∀ path ∈ directBundlePaths (.candidate .database), files.file path = none
  manifestCandidate : files.file (.candidate .manifest) = none
  shadows : ∀ path ∈ directBundlePaths .database, files.file (.shadow path) = none
  manifestShadow : files.file (.shadow .manifest) = none

theorem Residue.residueless_iff {start files : DirectFiles Bytes} (residue : Residue start files)
    : Residueless files
      ↔ ∀ suffix ∈ directDbSidecarSuffixes,
          shadowAfter start (.sidecar (.candidate .database) suffix) (.sidecar .database suffix)
          = none := by
  constructor
  · intro clean suffix inside
    rw [← residue.sidecarShadows suffix inside]
    exact clean.shadows _ (List.mem_cons_of_mem _ (List.mem_map_of_mem inside))
  · intro replaced
    refine ⟨residue.journal, residue.candidates, residue.manifestCandidate, ?_,
      residue.manifestShadow⟩
    intro path inside
    rcases List.mem_cons.mp inside with rfl | sidecar
    · exact residue.databaseShadow
    · obtain ⟨suffix, known, rfl⟩ := List.mem_map.mp sidecar
      exact (residue.sidecarShadows suffix known).trans (replaced suffix known)

/-- From whatever state earlier publications and crashes have left, a publication that returns
leaves nothing beside the bundle exactly if no sidecar of the candidate has a predecessor in the
replaced bundle, and no sidecar that the candidate lacks has an old shadow. Witness:
`directPublish_residueless_fresh`.
-/
theorem directPublish_residueless_iff (sha256 : Bytes → String) (display : DirectPath → String)
    (start : DirectFiles Bytes) (fates : List (Fate Empty))
    (returned : (publish sha256 display start fates).exit = .value ())
    : Residueless (publish sha256 display start fates).state
      ↔ ∀ suffix ∈ directDbSidecarSuffixes,
          if (start.file (.sidecar (.candidate .database) suffix)).isSome then
            start.file (.sidecar .database suffix) = none
          else start.file (.shadow (.sidecar .database suffix)) = none := by
  have returns : Returns (· = start) (publish sha256 display) (fun _ => Residue start) :=
    publish_residue start
  have ended := (returns start fates rfl).2
  rw [returned] at ended
  rw [Residue.residueless_iff ended]
  refine forall₂_congr (fun suffix _ => ?_)
  unfold shadowAfter
  split <;> rfl

/-- The replaced bundle has a write-ahead log only and the candidate a lexicon only. -/
theorem directPublish_residueless_fresh
    : (publish toString (fun _ => "") replacedBundle []).exit = .value ()
      ∧ Residueless (publish toString (fun _ => "") replacedBundle []).state := by
  have returned : (publish toString (fun _ => "") replacedBundle []).exit = .value () :=
    Exit.eq_value (by decide +kernel)
  refine ⟨returned, (directPublish_residueless_iff _ _ _ _ returned).mpr ?_⟩
  decide

/-- A bundle with a lexicon, and the candidates of another one. -/
def replacedLexicon : DirectFiles Nat where
  file
    | .database => some 1
    | .sidecar .database "search.lexicon.bin" => some 2
    | .manifest => some 3
    | .candidate .database => some 11
    | .sidecar (.candidate .database) "search.lexicon.bin" => some 12
    | .candidate .manifest => some 13
    | _ => none
  journal := none

/-- The old lexicon stays beside the new one, as its shadow. -/
theorem directPublish_leavesShadow
    : (publish toString (fun _ => "") replacedLexicon []).exit = .value ()
      ∧ (publish toString (fun _ => "") replacedLexicon []).state.file
          (.shadow (.sidecar .database "search.lexicon.bin"))
        = some 2
      ∧ ¬Residueless (publish toString (fun _ => "") replacedLexicon []).state := by
  have left
      : (publish toString (fun _ => "") replacedLexicon []).state.file
          (.shadow (.sidecar .database "search.lexicon.bin"))
        = some 2 := by
    decide +kernel
  refine ⟨Exit.eq_value (by decide +kernel), left, fun clean => ?_⟩
  have gone := clean.shadows (.sidecar .database "search.lexicon.bin") (by decide)
  simp [left] at gone

end CodebaseGraph.Storage.Direct
