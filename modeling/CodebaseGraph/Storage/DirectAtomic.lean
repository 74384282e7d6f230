import CodebaseGraph.Storage.Direct

/-! A direct publication is crash-atomic: from every state that its steps or those of an
interrupted recovery pass through, the next session that runs to its end leaves exactly the new
bundle, or exactly the old one when no journal was ever written.
-/

namespace CodebaseGraph.Storage.Direct

open CodebaseGraph.Crash Program

variable {Bytes : Type}

-- Single steps

section Steps

variable {pre : DirectFiles Bytes → Prop}
  {allowed : DirectFiles Bytes → DirectFiles Bytes → Prop}
  {failed : NativeError → DirectFiles Bytes → Prop}

theorem pathExists_ensures (path : DirectPath)
    : Ensures pre allowed (pathExists path)
        (fun found files => pre files ∧ found = (files.file path).isSome) failed := by
  refine .observe ?_ ?_ (fun _ fault _ => fault.elim)
  · intro files found start answer
    simp only [Except.ok.injEq] at answer
    exact ⟨start, answer.symm⟩
  · intro files problem start answer
    simp at answer

theorem readFile_ensures {path : DirectPath}
    (present : ∀ files, pre files → ∃ bytes, files.file path = some bytes)
    : Ensures pre allowed (readFile path)
        (fun bytes files => pre files ∧ files.file path = some bytes) failed := by
  refine .observe ?_ ?_ (fun _ fault _ => fault.elim)
  · intro files bytes start answer
    split at answer
    · next found =>
        simp only [Except.ok.injEq] at answer
        exact ⟨start, answer ▸ found⟩
    · simp at answer
  · intro files problem start answer
    obtain ⟨bytes, found⟩ := present files start
    simp [found] at answer

theorem ensureRegularFile_ensures {path : DirectPath}
    (present : ∀ files, pre files → ∃ bytes, files.file path = some bytes)
    : Ensures pre allowed (ensureRegularFile path) (fun _ => pre) failed :=
  .bind _ (readFile_ensures present) (fun _ => .ret (fun _ start => start.1))

theorem effect_ensures {write : DirectFiles Bytes → DirectFiles Bytes}
    {post : Unit → DirectFiles Bytes → Prop}
    (change : ∀ files, pre files → allowed files (write files))
    (done : ∀ files, pre files → post () (write files))
    : Ensures pre allowed (effect Empty.elim write) post failed :=
  .effect change done (fun _ fault => fault.elim) (fun _ fault => fault.elim)

theorem renameFile_ensures {source target : DirectPath}
    {post : Unit → DirectFiles Bytes → Prop}
    (present : ∀ files, pre files → ∃ bytes, files.file source = some bytes)
    (change : ∀ files, pre files → allowed files (files.rename source target))
    (done : ∀ files, pre files → post () (files.rename source target))
    : Ensures pre allowed (renameFile source target) post failed := by
  refine .bind _ (readFile_ensures present) (fun _ => effect_ensures ?_ ?_)
  · exact fun files start => change files start.1
  · exact fun files start => done files start.1

theorem removeIfSafeIfPresent_ensures {path : DirectPath}
    (change : ∀ files, pre files → allowed files (files.remove path))
    (kept : ∀ files, pre files → pre (files.remove path))
    : Ensures pre allowed (removeIfSafeIfPresent path)
        (fun _ files => pre files ∧ files.file path = none) failed := by
  refine .bind _ (pathExists_ensures path) (fun found => ?_)
  cases found with
  | true =>
      refine .bind _ (readFile_ensures ?_) (fun _ => effect_ensures ?_ ?_)
      · exact fun files start => Option.isSome_iff_exists.mp start.2.symm
      · exact fun files start => change files start.1.1
      · exact fun files start => ⟨kept files start.1.1, by simp [DirectFiles.remove]⟩
  | false =>
      refine .ret (fun files start => ⟨start.1, ?_⟩)
      simpa using start.2.symm

theorem readJournal_ensures
    : Ensures pre allowed readJournal (fun shown files => pre files ∧ shown = files.journal)
        failed := by
  refine .observe ?_ ?_ (fun _ fault _ => fault.elim)
  · intro files shown start answer
    simp only [Except.ok.injEq] at answer
    exact ⟨start, answer.symm⟩
  · intro files problem start answer
    simp at answer

end Steps

-----------------------------------------------------------------------------------------
-- Replacing one file
-----------------------------------------------------------------------------------------

/-- The content is still at its source, or has already arrived at its target. -/
def Moved (source target : DirectPath) (content : Bytes) (files : DirectFiles Bytes) : Prop :=
  files.file source = some content
  ∨ files.file source = none ∧ files.file target = some content

/-- Two states that differ at the given paths only. -/
def SameBeyond (changed : List DirectPath) (before after : DirectFiles Bytes) : Prop :=
  after.journal = before.journal
  ∧ ∀ path, path ∉ changed → after.file path = before.file path

theorem SameBeyond.rename {changed : List DirectPath} {source target : DirectPath}
    (files : DirectFiles Bytes) (first : source ∈ changed) (second : target ∈ changed)
    : SameBeyond changed files (files.rename source target) := by
  refine ⟨rfl, ?_⟩
  intro path outside
  have notSource : path ≠ source := fun same => outside (same ▸ first)
  have notTarget : path ≠ target := fun same => outside (same ▸ second)
  simp [DirectFiles.rename, notSource, notTarget]

theorem SameBeyond.remove {changed : List DirectPath} {path : DirectPath}
    (files : DirectFiles Bytes) (member : path ∈ changed)
    : SameBeyond changed files (files.remove path) := by
  refine ⟨rfl, ?_⟩
  intro other outside
  have different : other ≠ path := fun same => outside (same ▸ member)
  simp [DirectFiles.remove, different]

/-- `replace_with_shadow` from a state in which the content is at one of its two places: every
step leaves it at one of them, and the call ends with the content at the target.
-/
theorem replaceWithShadow_ensures (display : DirectPath → String) {source target : DirectPath}
    (content : Bytes) (keep : DirectFiles Bytes → Prop)
    {allowed : DirectFiles Bytes → DirectFiles Bytes → Prop}
    {failed : NativeError → DirectFiles Bytes → Prop}
    (distinct : source ≠ target) (apart : source ≠ .shadow target)
    (frame
      : ∀ {before after},
          SameBeyond [source, target, .shadow target] before after → keep before → keep after)
    (change
      : ∀ before after,
          Moved source target content before ∧ keep before
          → Moved source target content after ∧ keep after
          → allowed before after)
    : Ensures (fun files => Moved source target content files ∧ keep files) allowed
        (replaceWithShadow display source target)
        (fun _ files =>
          files.file source = none ∧ files.file target = some content ∧ keep files)
        failed := by
  have waits (files : DirectFiles Bytes)
      (still : files.file source = some content ∧ keep files)
      : Moved source target content files ∧ keep files :=
    ⟨Or.inl still.1, still.2⟩
  refine .bind _ (pathExists_ensures source) (fun found => ?_)
  cases found with
  | false =>
      -- A missing source has been moved by an earlier attempt.
      refine .bind _ (pathExists_ensures target) (fun arrived => ?_)
      have settled (files : DirectFiles Bytes)
          (start : (Moved source target content files ∧ keep files)
            ∧ false = (files.file source).isSome)
          : files.file source = none ∧ files.file target = some content ∧ keep files := by
        obtain ⟨⟨moved, kept⟩, missing⟩ := start
        rcases moved with present | ⟨gone, there⟩
        · simp [present] at missing
        · exact ⟨gone, there, kept⟩
      cases arrived with
      | true => exact .ret (fun files start => settled files start.1)
      | false =>
          refine .raise (fun files start => ?_)
          have there := (settled files start.1).2.1
          simp [there] at start
  | true =>
      have present (files : DirectFiles Bytes)
          (start : (Moved source target content files ∧ keep files)
            ∧ true = (files.file source).isSome)
          : files.file source = some content ∧ keep files := by
        obtain ⟨⟨moved, kept⟩, found⟩ := start
        rcases moved with here | ⟨gone, _⟩
        · exact ⟨here, kept⟩
        · simp [gone] at found
      refine Ensures.given ?_ present
      have held (files : DirectFiles Bytes)
          (still : files.file source = some content ∧ keep files)
          : ∃ bytes, files.file source = some bytes :=
        ⟨content, still.1⟩
      have unshadowed (files : DirectFiles Bytes)
          (still : files.file source = some content ∧ keep files)
          : (files.remove (.shadow target)).file source = some content
            ∧ keep (files.remove (.shadow target)) :=
        ⟨by simp [DirectFiles.remove, apart, still.1], frame (.remove files (by simp)) still.2⟩
      have aside (files : DirectFiles Bytes)
          (still : files.file source = some content ∧ keep files)
          : (files.rename target (.shadow target)).file source = some content
            ∧ keep (files.rename target (.shadow target)) :=
        ⟨by simp [DirectFiles.rename, apart, distinct, still.1],
          frame (.rename files (by simp) (by simp)) still.2⟩
      refine .bind _ (ensureRegularFile_ensures held) (fun _ => ?_)
      refine .bind _ (removeIfSafeIfPresent_ensures ?_ unshadowed) (fun _ => ?_)
      · exact fun files still => change _ _ (waits _ still) (waits _ (unshadowed _ still))
      refine .bind (fun _ files => files.file source = some content ∧ keep files) ?_
        (fun _ => ?_)
      · refine .bind _ (pathExists_ensures target) (fun occupied => ?_)
        cases occupied with
        | true =>
            refine renameFile_ensures ?_ ?_ ?_
            · exact fun files start => Option.isSome_iff_exists.mp start.2.symm
            · exact fun files start =>
                change _ _ (waits _ start.1.1) (waits _ (aside _ start.1.1))
            · exact fun files start => aside _ start.1.1
        | false => exact .ret (fun files start => start.1.1)
      · have arrives (files : DirectFiles Bytes)
            (still : files.file source = some content ∧ keep files)
            : (files.rename source target).file source = none
              ∧ (files.rename source target).file target = some content
              ∧ keep (files.rename source target) :=
          ⟨by simp [DirectFiles.rename, distinct], by simp [DirectFiles.rename, still.1],
            frame (.rename files (by simp) (by simp)) still.2⟩
        refine renameFile_ensures held ?_ arrives
        intro files still
        obtain ⟨gone, there, kept⟩ := arrives files still
        exact change _ _ (waits _ still) ⟨Or.inr ⟨gone, there⟩, kept⟩

-----------------------------------------------------------------------------------------
-- What each phase of the journal promises
-----------------------------------------------------------------------------------------

/-- A database with its sidecars and its manifest. -/
@[ext]
structure DirectBundle (Bytes : Type) where
  database : Option Bytes
  sidecar : String → Option Bytes
  manifest : Option Bytes

def DirectFiles.bundleAt (files : DirectFiles Bytes) (dbPath manifestPath : DirectPath)
    : DirectBundle Bytes where
  database := files.file dbPath
  sidecar suffix :=
    if suffix ∈ directDbSidecarSuffixes then files.file (.sidecar dbPath suffix) else none
  manifest := files.file manifestPath

/-- The bundle that readers open. -/
def DirectFiles.bundle (files : DirectFiles Bytes) : DirectBundle Bytes :=
  files.bundleAt .database .manifest

def DirectFiles.candidates (files : DirectFiles Bytes) : DirectBundle Bytes :=
  files.bundleAt (.candidate .database) (.candidate .manifest)

section Phases

variable (sha256 : Bytes → String) (bundle : DirectBundle Bytes)

/-- A journal of the publication of `bundle`. -/
structure Describes (journal : DirectPublishJournal) : Prop where
  paths
    : journal.dbPath = .database
      ∧ journal.dbCandidatePath = .candidate .database
      ∧ journal.manifestPath = .manifest
      ∧ journal.manifestCandidatePath = .candidate .manifest
  database : bundle.database.map sha256 = some journal.dbSha256
  manifest : bundle.manifest.map sha256 = some journal.manifestSha256
  sidecars
    : ∀ suffix digest,
        (suffix, digest) ∈ journal.sidecarSha256
        ↔ suffix ∈ directDbSidecarSuffixes ∧ (bundle.sidecar suffix).map sha256 = some digest

/-- The new database and the new sidecars that belong to the bundle can still be placed. -/
structure DatabaseMoving (files : DirectFiles Bytes) : Prop where
  database
    : ∀ content,
        bundle.database = some content
        → Moved (.candidate .database) .database content files
  sidecars
    : ∀ suffix ∈ directDbSidecarSuffixes,
        ∀ content,
          bundle.sidecar suffix = some content
          → Moved (.sidecar (.candidate .database) suffix) (.sidecar .database suffix) content
              files

/-- The new database is in place, with exactly its own sidecars. -/
structure DatabasePlaced (files : DirectFiles Bytes) : Prop where
  database : files.file .database = bundle.database
  sidecars
    : ∀ suffix ∈ directDbSidecarSuffixes,
        files.file (.sidecar .database suffix) = bundle.sidecar suffix

/-- What holds of the files while the journal shows a phase. -/
def PhaseFiles (files : DirectFiles Bytes) : DirectPublishPhase → Prop
  | .prepared =>
      DatabaseMoving bundle files ∧ files.file (.candidate .manifest) = bundle.manifest
  | .databasePromoted =>
      DatabasePlaced bundle files
      ∧ ∀ content,
          bundle.manifest = some content
          → Moved (.candidate .manifest) .manifest content files
  | .manifestPromoted | .committed =>
      DatabasePlaced bundle files ∧ files.file .manifest = bundle.manifest

/-- The states from which every recovery leads to `bundle`. -/
def Recoverable (files : DirectFiles Bytes) : Prop :=
  match files.journal with
  | none => files.bundle = bundle
  | some journal => Describes sha256 bundle journal ∧ PhaseFiles bundle files journal.phase

/-- A state that still shows the journal it was opened with. -/
def Showing (journal : DirectPublishJournal) (files : DirectFiles Bytes) : Prop :=
  files.journal = some journal
  ∧ Describes sha256 bundle journal
  ∧ PhaseFiles bundle files journal.phase

end Phases

section Phases

variable {sha256 : Bytes → String} {display : DirectPath → String}
  {bundle : DirectBundle Bytes} {journal : DirectPublishJournal} {files : DirectFiles Bytes}
  {failed : NativeError → DirectFiles Bytes → Prop}

theorem Showing.recoverable (showing : Showing sha256 bundle journal files)
    : Recoverable sha256 bundle files := by
  obtain ⟨shown, describes, holds⟩ := showing
  simp only [Recoverable, shown]
  exact ⟨describes, holds⟩

theorem Describes.withPhase (describes : Describes sha256 bundle journal)
    (phase : DirectPublishPhase)
    : Describes sha256 bundle { journal with phase } :=
  ⟨describes.paths, describes.database, describes.manifest, describes.sidecars⟩

/-- The journal lists a sidecar exactly when the bundle has it. -/
theorem Describes.any_iff (describes : Describes sha256 bundle journal) {suffix : String}
    (known : suffix ∈ directDbSidecarSuffixes)
    : journal.sidecarSha256.any (fun entry => entry.1 = suffix)
      = (bundle.sidecar suffix).isSome := by
  rw [Bool.eq_iff_iff, List.any_eq_true, Option.isSome_iff_exists]
  constructor
  · intro listed
    obtain ⟨⟨other, digest⟩, member, same⟩ := listed
    obtain rfl : other = suffix := by simpa using same
    obtain ⟨content, held, -⟩ := Option.map_eq_some_iff.mp ((describes.sidecars _ _).mp member).2
    exact ⟨content, held⟩
  · intro has
    obtain ⟨content, held⟩ := has
    exact ⟨(suffix, sha256 content), (describes.sidecars _ _).mpr ⟨known, by simp [held]⟩,
      by simp⟩

theorem validateChecksum_ensures {pre : DirectFiles Bytes → Prop}
    {allowed : DirectFiles Bytes → DirectFiles Bytes → Prop} {path : DirectPath}
    {expected label : String}
    (matching : ∀ files, pre files → (files.file path).map sha256 = some expected)
    : Ensures pre allowed (validateChecksum sha256 display path expected label)
        (fun _ => pre) failed := by
  refine .bind (fun actual files => pre files ∧ actual = expected)
    (.bind _ (readFile_ensures ?_) (fun bytes => .ret (fun files start => ?_)))
    (fun actual => ?_)
  · intro files start
    obtain ⟨bytes, found, -⟩ := Option.map_eq_some_iff.mp (matching files start)
    exact ⟨bytes, found⟩
  · have same := matching files start.1
    rw [start.2] at same
    exact ⟨start.1, by simpa using same⟩
  · by_cases same : actual = expected
    · rw [if_pos same]
      exact .ret (fun files start => start.1)
    · rw [if_neg same]
      exact .raise (fun files start => absurd start.2 same)

/-- The checks of the promoted database pass once it is in place. -/
theorem databaseChecksum_ensures {pre : DirectFiles Bytes → Prop}
    {allowed : DirectFiles Bytes → DirectFiles Bytes → Prop}
    (describes : Describes sha256 bundle journal)
    (placed : ∀ files, pre files → DatabasePlaced bundle files)
    : Ensures pre allowed
        (validateChecksum sha256 display journal.dbPath journal.dbSha256 "database")
        (fun _ => pre) failed := by
  refine validateChecksum_ensures ?_
  intro files start
  rw [describes.paths.1, (placed files start).database]
  exact describes.database

theorem sidecarChecksums_ensure {pre : DirectFiles Bytes → Prop}
    {allowed : DirectFiles Bytes → DirectFiles Bytes → Prop}
    (describes : Describes sha256 bundle journal)
    (placed : ∀ files, pre files → DatabasePlaced bundle files)
    : Ensures pre allowed
        (validateSidecarChecksums sha256 display journal.dbPath journal.sidecarSha256)
        (fun _ => pre) failed := by
  refine .forM (fun _ => pre) ?_
  intro entry rest tail
  have member : entry ∈ journal.sidecarSha256 := tail.subset (by simp)
  obtain ⟨known, digest⟩ := (describes.sidecars entry.1 entry.2).mp member
  refine validateChecksum_ensures ?_
  intro files start
  rw [describes.paths.1, (placed files start).sidecars _ known]
  exact digest

theorem manifestChecksum_ensures {pre : DirectFiles Bytes → Prop}
    {allowed : DirectFiles Bytes → DirectFiles Bytes → Prop}
    (describes : Describes sha256 bundle journal)
    (placed : ∀ files, pre files → files.file .manifest = bundle.manifest)
    : Ensures pre allowed
        (validateChecksum sha256 display journal.manifestPath journal.manifestSha256
          "manifest")
        (fun _ => pre) failed := by
  refine validateChecksum_ensures ?_
  intro files start
  rw [describes.paths.2.2.1, placed files start]
  exact describes.manifest

-----------------------------------------------------------------------------------------
-- Promotion of the database bundle
-----------------------------------------------------------------------------------------

/-- A prepared publication whose database is in place, with the sidecars that are still to be
handled; nothing is said about the `busy` ones.
-/
structure Promoting (bundle : DirectBundle Bytes) (journal : DirectPublishJournal)
    (busy : String → Prop) (pending : List String) (files : DirectFiles Bytes)
    : Prop where
  shown : files.journal = some journal
  gone : files.file (.candidate .database) = none
  database : files.file .database = bundle.database
  manifest : files.file (.candidate .manifest) = bundle.manifest
  moving
    : ∀ suffix ∈ directDbSidecarSuffixes,
        ¬ busy suffix
        → ∀ content,
            bundle.sidecar suffix = some content
            → Moved (.sidecar (.candidate .database) suffix) (.sidecar .database suffix)
                content files
  placed
    : ∀ suffix ∈ directDbSidecarSuffixes,
        suffix ∉ pending
        → files.file (.sidecar .database suffix) = bundle.sidecar suffix

theorem Promoting.showing {pending : List String}
    (promoting : Promoting bundle journal (fun _ => False) pending files)
    (describes : Describes sha256 bundle journal) (prepared : journal.phase = .prepared)
    : Showing sha256 bundle journal files := by
  refine ⟨promoting.shown, describes, ?_⟩
  rw [prepared]
  refine ⟨⟨?_, fun suffix known => promoting.moving suffix known (by simp)⟩,
    promoting.manifest⟩
  intro content held
  exact Or.inr ⟨promoting.gone, promoting.database.trans held⟩

/-- The files of one sidecar do not matter to the others. -/
theorem Promoting.frame {busy : String → Prop} {pending : List String} {item : String}
    {after : DirectFiles Bytes}
    (same
      : SameBeyond
          [.sidecar (.candidate .database) item, .sidecar .database item,
            .shadow (.sidecar .database item)]
          files after)
    (involved : busy item) (queued : item ∈ pending)
    (promoting : Promoting bundle journal busy pending files)
    : Promoting bundle journal busy pending after := by
  obtain ⟨journals, agree⟩ := same
  constructor
  · exact journals.trans promoting.shown
  · exact (agree _ (by simp)).trans promoting.gone
  · exact (agree _ (by simp)).trans promoting.database
  · exact (agree _ (by simp)).trans promoting.manifest
  · intro suffix known free content held
    have other : suffix ≠ item := fun equal => free (equal ▸ involved)
    have moved := promoting.moving suffix known free content held
    simpa only [Moved, agree (.sidecar (.candidate .database) suffix) (by simp [other]),
      agree (.sidecar .database suffix) (by simp [other])] using moved
  · intro suffix known done
    have other : suffix ≠ item := fun equal => done (equal ▸ queued)
    exact (agree _ (by simp [other])).trans (promoting.placed suffix known done)

theorem promoteSidecar_ensures {item : String} {rest : List String}
    (describes : Describes sha256 bundle journal) (prepared : journal.phase = .prepared)
    (known : item ∈ directDbSidecarSuffixes)
    : Ensures (Promoting bundle journal (fun _ => False) (item :: rest))
        (fun _ after => Recoverable sha256 bundle after) (promoteSidecar display journal item)
        (fun _ => Promoting bundle journal (fun _ => False) rest) failed := by
  obtain ⟨dbPath, dbCandidatePath, -, -⟩ := describes.paths
  unfold promoteSidecar
  rw [describes.any_iff known, dbPath, dbCandidatePath]
  -- The state with the item's own files set apart, and put back together.
  have split (files : DirectFiles Bytes)
      (promoting : Promoting bundle journal (fun _ => False) (item :: rest) files)
      : Promoting bundle journal (· = item) (item :: rest) files :=
    { promoting with
      moving := fun suffix inside _ => promoting.moving suffix inside (by simp) }
  have join (files : DirectFiles Bytes) (pending : List String)
      (promoting : Promoting bundle journal (· = item) (item :: rest) files)
      (moved
        : ∀ content,
            bundle.sidecar item = some content
            → Moved (.sidecar (.candidate .database) item) (.sidecar .database item) content
                files)
      (placed : pending = item :: rest ∨ pending = rest
        ∧ files.file (.sidecar .database item) = bundle.sidecar item)
      : Promoting bundle journal (fun _ => False) pending files := by
    refine { promoting with moving := ?_, placed := ?_ }
    · intro suffix inside _ content held
      by_cases here : suffix = item
      · exact here ▸ moved content (here ▸ held)
      · exact promoting.moving suffix inside here content held
    · intro suffix inside done
      by_cases here : suffix = item
      · rcases placed with rfl | ⟨rfl, arrived⟩
        · exact absurd (by simp [here]) done
        · exact here ▸ arrived
      · refine promoting.placed suffix inside ?_
        rcases placed with rfl | ⟨rfl, -⟩
        · exact done
        · simp [here, done]
  cases held : bundle.sidecar item with
  | some content =>
      simp only [Option.isSome_some, if_true]
      refine .bind (fun _ files =>
        files.file (.sidecar (.candidate .database) item) = none
        ∧ files.file (.sidecar .database item) = some content
        ∧ Promoting bundle journal (· = item) (item :: rest) files) ?_ (fun _ => ?_)
      · refine Ensures.given (replaceWithShadow_ensures display content
          (Promoting bundle journal (· = item) (item :: rest)) (by simp) (by simp)
          (fun same promoting => promoting.frame same rfl (by simp)) ?_) ?_
        · intro before after _ later
          refine (join after (item :: rest) later.2 ?_ (Or.inl rfl)).showing describes
            prepared |>.recoverable
          intro other equal
          obtain rfl : content = other := by simpa [held] using equal
          exact later.1
        · intro files promoting
          exact ⟨promoting.moving item known (by simp) content held, split files promoting⟩
      · refine (ensureRegularFile_ensures ?_).weaken (fun _ start => start)
          (fun step => step) ?_ (fun _ _ fallen => fallen)
        · exact fun files start => ⟨content, start.2.1⟩
        · intro _ files start
          obtain ⟨gone, arrived, promoting⟩ := start
          refine join files rest promoting ?_ (Or.inr ⟨rfl, arrived.trans held.symm⟩)
          intro other equal
          obtain rfl : content = other := by simpa [held] using equal
          exact Or.inr ⟨gone, arrived⟩
  | none =>
      simp only [Option.isSome_none, Bool.false_eq_true, if_false]
      have absent (pending : List String) (files : DirectFiles Bytes)
          (promoting : Promoting bundle journal (· = item) (item :: rest) files)
          (placed : pending = item :: rest ∨ pending = rest
            ∧ files.file (.sidecar .database item) = bundle.sidecar item)
          : Promoting bundle journal (fun _ => False) pending files :=
        join files pending promoting (by simp [held]) placed
      have kept (files : DirectFiles Bytes)
          (promoting : Promoting bundle journal (· = item) (item :: rest) files)
          : Promoting bundle journal (· = item) (item :: rest)
              (files.remove (.sidecar .database item)) :=
        promoting.frame (.remove files (by simp)) rfl (by simp)
      refine ((removeIfSafeIfPresent_ensures ?_ kept).given split).weaken
        (fun _ start => start) (fun step => step) ?_ (fun _ _ fallen => fallen)
      · intro before promoting
        exact ((absent (item :: rest) _ (kept before promoting) (Or.inl rfl)).showing describes
          prepared).recoverable
      · intro _ after later
        exact absent rest after later.1 (Or.inr ⟨rfl, later.2.trans held.symm⟩)

/-- What the rename of the database leaves alone in a prepared publication. -/
structure BesideDatabase (bundle : DirectBundle Bytes) (journal : DirectPublishJournal)
    (files : DirectFiles Bytes)
    : Prop where
  shown : files.journal = some journal
  manifest : files.file (.candidate .manifest) = bundle.manifest
  sidecars
    : ∀ suffix ∈ directDbSidecarSuffixes,
        ∀ content,
          bundle.sidecar suffix = some content
          → Moved (.sidecar (.candidate .database) suffix) (.sidecar .database suffix) content
              files

theorem BesideDatabase.frame {after : DirectFiles Bytes}
    (same : SameBeyond [.candidate .database, .database, .shadow .database] files after)
    (beside : BesideDatabase bundle journal files)
    : BesideDatabase bundle journal after := by
  obtain ⟨journals, agree⟩ := same
  refine ⟨journals.trans beside.shown, (agree _ (by simp)).trans beside.manifest, ?_⟩
  intro suffix known content held
  simpa only [Moved, agree (.sidecar (.candidate .database) suffix) (by simp),
    agree (.sidecar .database suffix) (by simp)]
    using beside.sidecars suffix known content held

theorem BesideDatabase.showing {content : Bytes} (beside : BesideDatabase bundle journal files)
    (moved : Moved (.candidate .database) .database content files)
    (held : bundle.database = some content) (describes : Describes sha256 bundle journal)
    (prepared : journal.phase = .prepared)
    : Showing sha256 bundle journal files := by
  refine ⟨beside.shown, describes, ?_⟩
  rw [prepared]
  refine ⟨⟨?_, beside.sidecars⟩, beside.manifest⟩
  intro other equal
  obtain rfl : content = other := by simpa [held] using equal
  exact moved

theorem promoteDatabaseBundle_ensures (describes : Describes sha256 bundle journal)
    (prepared : journal.phase = .prepared)
    : Ensures (Showing sha256 bundle journal)
        (fun _ after => Recoverable sha256 bundle after) (promoteDatabaseBundle display journal)
        (fun _ => Promoting bundle journal (fun _ => False) []) failed := by
  obtain ⟨dbPath, dbCandidatePath, -, -⟩ := describes.paths
  obtain ⟨content, held, -⟩ := Option.map_eq_some_iff.mp describes.database
  unfold promoteDatabaseBundle
  rw [dbPath, dbCandidatePath]
  refine .bind (fun _ => Promoting bundle journal (fun _ => False) directDbSidecarSuffixes)
    ?_ (fun _ => .forM (fun pending => Promoting bundle journal (fun _ => False) pending) ?_)
  · refine (replaceWithShadow_ensures display content (BesideDatabase bundle journal) (by simp)
      (by simp) BesideDatabase.frame ?_).weaken ?_ (fun step => step) ?_ (fun _ _ fallen => fallen)
    · exact fun before after _ later =>
        (later.2.showing later.1 held describes prepared).recoverable
    · intro files showing
      obtain ⟨shown, -, holds⟩ := showing
      rw [prepared] at holds
      exact ⟨holds.1.database content held, shown, holds.2, holds.1.sidecars⟩
    · intro _ files later
      obtain ⟨gone, arrived, beside⟩ := later
      exact ⟨beside.shown, gone, arrived.trans held.symm, beside.manifest,
        fun suffix known _ => beside.sidecars suffix known,
        fun suffix known done => absurd known done⟩
  · intro item rest tail
    exact promoteSidecar_ensures describes prepared (tail.subset (by simp))

-----------------------------------------------------------------------------------------
-- Resuming a publication from its journal
-----------------------------------------------------------------------------------------

/-- The journal moves on to a phase whose promise already holds. -/
theorem writeJournal_ensures {pre : DirectFiles Bytes → Prop} {phase : DirectPublishPhase}
    (describes : Describes sha256 bundle journal)
    (holds : ∀ files, pre files → PhaseFiles bundle files phase)
    : Ensures pre (fun _ after => Recoverable sha256 bundle after)
        (writeJournal { journal with phase })
        (fun _ => Showing sha256 bundle { journal with phase }) failed := by
  have shows (files : DirectFiles Bytes) (start : pre files)
      : Showing sha256 bundle { journal with phase }
          { files with journal := some { journal with phase } } := by
    refine ⟨rfl, describes.withPhase phase, ?_⟩
    have before := holds files start
    cases phase with
    | prepared | databasePromoted =>
        obtain ⟨first, second⟩ := before
        exact ⟨⟨first.database, first.sidecars⟩, second⟩
    | manifestPromoted | committed =>
        obtain ⟨placed, manifest⟩ := before
        exact ⟨⟨placed.database, placed.sidecars⟩, manifest⟩
  exact effect_ensures (fun files start => (shows files start).recoverable) shows

theorem Promoting.placedAll (promoting : Promoting bundle journal (fun _ => False) [] files)
    : DatabasePlaced bundle files :=
  ⟨promoting.database, fun suffix known => promoting.placed suffix known (by simp)⟩

theorem resumePrepared_ensures (describes : Describes sha256 bundle journal)
    : Ensures (Showing sha256 bundle journal)
        (fun _ after => Recoverable sha256 bundle after)
        (resumePrepared sha256 display journal)
        (fun next files => Showing sha256 bundle next files ∧ next.phase ≠ .prepared)
        failed := by
  unfold resumePrepared
  by_cases prepared : journal.phase = .prepared
  · rw [if_pos prepared]
    refine .bind _ (promoteDatabaseBundle_ensures describes prepared) (fun _ => ?_)
    refine .bind _ (databaseChecksum_ensures describes (fun _ start => start.placedAll))
      (fun _ => ?_)
    refine .bind _ (sidecarChecksums_ensure describes (fun _ start => start.placedAll))
      (fun _ => ?_)
    refine .bind _ (writeJournal_ensures describes ?_) (fun _ => ?_)
    · intro files start
      refine ⟨start.placedAll, ?_⟩
      intro content held
      exact Or.inl (start.manifest.trans held)
    · exact .ret (fun files showing => ⟨showing, by simp⟩)
  · rw [if_neg prepared]
    exact .ret (fun files showing => ⟨showing, prepared⟩)

theorem Showing.placed (showing : Showing sha256 bundle journal files)
    (later : journal.phase ≠ .prepared)
    : DatabasePlaced bundle files := by
  obtain ⟨-, -, holds⟩ := showing
  cases phase : journal.phase with
  | prepared => exact absurd phase later
  | databasePromoted | manifestPromoted | committed =>
      rw [phase] at holds
      exact holds.1

theorem resumeDatabaseChecks_ensures (describes : Describes sha256 bundle journal)
    (later : journal.phase ≠ .prepared)
    : Ensures (Showing sha256 bundle journal)
        (fun _ after => Recoverable sha256 bundle after)
        (resumeDatabaseChecks sha256 display journal)
        (fun _ => Showing sha256 bundle journal) failed := by
  unfold resumeDatabaseChecks
  split
  · refine .bind _ (databaseChecksum_ensures describes ?_)
      (fun _ => sidecarChecksums_ensure describes ?_)
    · exact fun _ showing => showing.placed later
    · exact fun _ showing => showing.placed later
  · exact .ret (fun _ showing => showing)

/-- What the rename of the manifest leaves alone. -/
structure BesideManifest (bundle : DirectBundle Bytes) (journal : DirectPublishJournal)
    (files : DirectFiles Bytes)
    : Prop where
  shown : files.journal = some journal
  placed : DatabasePlaced bundle files

theorem BesideManifest.frame {after : DirectFiles Bytes}
    (same : SameBeyond [.candidate .manifest, .manifest, .shadow .manifest] files after)
    (beside : BesideManifest bundle journal files)
    : BesideManifest bundle journal after := by
  obtain ⟨journals, agree⟩ := same
  refine ⟨journals.trans beside.shown, (agree _ (by simp)).trans beside.placed.database, ?_⟩
  intro suffix known
  exact (agree _ (by simp)).trans (beside.placed.sidecars suffix known)

theorem resumeDatabasePromoted_ensures (describes : Describes sha256 bundle journal)
    (later : journal.phase ≠ .prepared)
    : Ensures (Showing sha256 bundle journal)
        (fun _ after => Recoverable sha256 bundle after)
        (resumeDatabasePromoted sha256 display journal)
        (fun next files =>
          Showing sha256 bundle next files
          ∧ DatabasePlaced bundle files
          ∧ files.file .manifest = bundle.manifest)
        failed := by
  unfold resumeDatabasePromoted
  by_cases promoted : journal.phase = .databasePromoted
  · rw [if_pos promoted]
    obtain ⟨-, -, manifestPath, manifestCandidatePath⟩ := describes.paths
    obtain ⟨content, held, -⟩ := Option.map_eq_some_iff.mp describes.manifest
    refine .bind (fun _ files =>
      BesideManifest bundle journal files ∧ files.file .manifest = bundle.manifest) ?_
      (fun _ => ?_)
    · rw [manifestPath, manifestCandidatePath]
      refine (replaceWithShadow_ensures display content (BesideManifest bundle journal)
        (by simp) (by simp) BesideManifest.frame ?_).weaken ?_ (fun step => step) ?_
        (fun _ _ fallen => fallen)
      · intro before after _ moved
        refine Showing.recoverable ⟨moved.2.shown, describes, ?_⟩
        rw [promoted]
        refine ⟨moved.2.placed, ?_⟩
        intro other equal
        obtain rfl : content = other := by simpa [held] using equal
        exact moved.1
      · intro files showing
        obtain ⟨shown, -, holds⟩ := showing
        rw [promoted] at holds
        exact ⟨holds.2 content held, shown, holds.1⟩
      · exact fun _ files moved => ⟨moved.2.2, moved.2.1.trans held.symm⟩
    · refine .bind _ (manifestChecksum_ensures describes (fun _ start => start.2))
        (fun _ => ?_)
      refine .bind _ (writeJournal_ensures describes ?_) (fun _ => .ret ?_)
      · exact fun files start => ⟨start.1.placed, start.2⟩
      · exact fun files showing => ⟨showing, showing.2.2.1, showing.2.2.2⟩
  · rw [if_neg promoted]
    refine .ret (fun files showing => ?_)
    obtain ⟨-, -, holds⟩ := id showing
    cases phase : journal.phase with
    | prepared => exact absurd phase later
    | databasePromoted => exact absurd phase promoted
    | manifestPromoted | committed =>
        rw [phase] at holds
        exact ⟨showing, holds⟩

/-- A bundle is what its parts are. -/
theorem DatabasePlaced.bundle_eq (placed : DatabasePlaced bundle files)
    (manifest : files.file .manifest = bundle.manifest)
    (known
      : ∀ suffix, suffix ∉ directDbSidecarSuffixes → bundle.sidecar suffix = none)
    : files.bundle = bundle := by
  refine DirectBundle.ext placed.database (funext fun suffix => ?_) manifest
  by_cases inside : suffix ∈ directDbSidecarSuffixes
  · simp [DirectFiles.bundle, DirectFiles.bundleAt, inside, placed.sidecars suffix inside]
  · simp [DirectFiles.bundle, DirectFiles.bundleAt, inside, known suffix inside]

/-- Everything is in place, whatever the journal still says. -/
structure Placed (sha256 : Bytes → String) (bundle : DirectBundle Bytes)
    (files : DirectFiles Bytes)
    : Prop where
  recoverable : Recoverable sha256 bundle files
  database : DatabasePlaced bundle files
  manifest : files.file .manifest = bundle.manifest

theorem resumePublish_ensures (describes : Describes sha256 bundle journal)
    : Ensures (Showing sha256 bundle journal)
        (fun _ after => Recoverable sha256 bundle after)
        (resumePublish sha256 display journal) (fun _ => Placed sha256 bundle) failed := by
  refine .bind _ (resumePrepared_ensures describes) (fun next => ?_)
  refine .assuming _ (fun _ start => And.intro start.1.2.1 start.2) (fun facts => ?_)
  obtain ⟨describesNext, later⟩ := facts
  refine .bind _ (.given (resumeDatabaseChecks_ensures describesNext later)
    (fun _ start => start.1)) (fun _ => ?_)
  refine .bind _ (resumeDatabasePromoted_ensures describesNext later) (fun last => ?_)
  refine .assuming _ (fun _ start => start.1.2.1) (fun describesLast => ?_)
  refine .bind (fun _ files =>
    Showing sha256 bundle last files
    ∧ DatabasePlaced bundle files
    ∧ files.file .manifest = bundle.manifest) ?_ (fun _ => ?_)
  · unfold resumeManifestChecks
    split
    · exact manifestChecksum_ensures describesLast (fun _ start => start.2.2)
    · exact .ret (fun _ start => start)
  · unfold resumeManifestPromoted
    split
    · refine (writeJournal_ensures describesLast ?_).weaken (fun _ start => start)
        (fun step => step) ?_ (fun _ _ fallen => fallen)
      · exact fun files start => start.2
      · exact fun _ files showing =>
          ⟨showing.recoverable, showing.2.2.1, showing.2.2.2⟩
    · exact .ret (fun _ start => ⟨start.1.recoverable, start.2.1, start.2.2⟩)

-----------------------------------------------------------------------------------------
-- Cleanup and whole sessions
-----------------------------------------------------------------------------------------

/-- Bundles have no sidecars but the known ones. -/
def DirectBundle.Known (bundle : DirectBundle Bytes) : Prop :=
  ∀ suffix, suffix ∉ directDbSidecarSuffixes → bundle.sidecar suffix = none

theorem DirectFiles.bundleAt_known (files : DirectFiles Bytes)
    (dbPath manifestPath : DirectPath)
    : (files.bundleAt dbPath manifestPath).Known := by
  intro suffix unknown
  simp [DirectFiles.bundleAt, unknown]

/-- The bundle is in place and nothing is left to recover. -/
structure Settled (bundle : DirectBundle Bytes) (files : DirectFiles Bytes) : Prop where
  journal : files.journal = none
  bundle_eq : files.bundle = bundle

theorem Settled.recoverable (settled : Settled bundle files)
    : Recoverable sha256 bundle files := by
  simp only [Recoverable, settled.journal]
  exact settled.bundle_eq

/-- The paths that no reader opens. -/
def Unread (path : DirectPath) : Prop :=
  path ≠ .database ∧ path ≠ .manifest ∧ ∀ suffix, path ≠ .sidecar .database suffix

theorem Settled.remove {path : DirectPath} (settled : Settled bundle files)
    (unread : Unread path)
    : Settled bundle (files.remove path) := by
  obtain ⟨notDatabase, notManifest, notSidecar⟩ := unread
  refine ⟨settled.journal, Eq.trans ?_ settled.bundle_eq⟩
  refine DirectBundle.ext ?_ (funext fun suffix => ?_) ?_
  · simp [DirectFiles.bundle, DirectFiles.bundleAt, DirectFiles.remove, notDatabase.symm]
  · simp [DirectFiles.bundle, DirectFiles.bundleAt, DirectFiles.remove,
      (notSidecar suffix).symm]
  · simp [DirectFiles.bundle, DirectFiles.bundleAt, DirectFiles.remove, notManifest.symm]

theorem removeUnread_ensures {path : DirectPath} (unread : Unread path)
    : Ensures (Settled bundle) (fun _ after => Recoverable sha256 bundle after)
        (removeIfSafeIfPresent path) (fun _ => Settled bundle) failed :=
  (removeIfSafeIfPresent_ensures
    (fun _ settled => (settled.remove unread).recoverable)
    (fun _ settled => settled.remove unread)).weaken
      (fun _ start => start) (fun step => step) (fun _ _ start => start.1)
      (fun _ _ fallen => fallen)

theorem removeJournalAndShadows_ensures (known : bundle.Known)
    : Ensures (Placed sha256 bundle) (fun _ after => Recoverable sha256 bundle after)
        removeJournalAndShadows (fun _ => Settled bundle) failed := by
  have settles (files : DirectFiles Bytes) (placed : Placed sha256 bundle files)
      : Settled bundle { files with journal := none } :=
    ⟨rfl, placed.database.bundle_eq placed.manifest known⟩
  refine .bind (fun _ => Settled bundle) ?_ (fun _ => ?_)
  · refine .bind _ readJournal_ensures (fun shown => ?_)
    cases shown with
    | some journal =>
        simp only [Option.isSome_some, if_true]
        refine effect_ensures ?_ ?_
        · exact fun files start => (settles files start.1).recoverable
        · exact fun files start => settles files start.1
    | none =>
        simp only [Option.isSome_none, Bool.false_eq_true, if_false]
        refine .ret (fun files start => ⟨start.2.symm, ?_⟩)
        exact start.1.database.bundle_eq start.1.manifest known
  · refine .bind _ (removeUnread_ensures ?_) (fun _ => removeUnread_ensures ?_)
    · simp [Unread]
    · simp [Unread]

theorem cleanupCandidateSet_ensures
    : Ensures (Settled bundle) (fun _ after => Recoverable sha256 bundle after)
        cleanupCandidateSet (fun _ => Settled bundle) failed := by
  refine .bind _ (.forM (fun _ => Settled bundle) ?_) (fun _ => removeUnread_ensures ?_)
  · intro path rest tail
    refine removeUnread_ensures ?_
    have member : path ∈ directBundlePaths (.candidate .database) := tail.subset (by simp)
    rcases List.mem_cons.mp member with rfl | sidecar
    · simp [Unread]
    · obtain ⟨suffix, -, rfl⟩ := List.mem_map.mp sidecar
      simp [Unread]
  · simp [Unread]

theorem recoverWithLock_ensures (known : bundle.Known)
    : Ensures (Recoverable sha256 bundle) (fun _ after => Recoverable sha256 bundle after)
        (recoverWithLock sha256 display) (fun _ => Settled bundle) failed := by
  refine .bind _ readJournal_ensures (fun shown => ?_)
  cases shown with
  | none =>
      refine .ret (fun files start => ⟨start.2.symm, ?_⟩)
      have recoverable := start.1
      simpa only [Recoverable, ← start.2] using recoverable
  | some journal =>
      have shows (files : DirectFiles Bytes)
          (start : Recoverable sha256 bundle files ∧ some journal = files.journal)
          : Showing sha256 bundle journal files := by
        have recoverable := start.1
        simp only [Recoverable, ← start.2] at recoverable
        exact ⟨start.2.symm, recoverable⟩
      refine .given ?_ shows
      refine .assuming _ (fun _ showing => showing.2.1) (fun describes => ?_)
      obtain ⟨dbPath, dbCandidatePath, manifestPath, manifestCandidatePath⟩ := describes.paths
      have destinations : validateJournalDestinations journal = .ok () := by
        simp [validateJournalDestinations, dbPath, manifestPath]
      have sources : validateJournalSources journal = .ok () := by
        rw [validateJournalSources, if_neg]
        rintro (wrong | wrong | ⟨entry, member, unknown⟩)
        · exact wrong dbCandidatePath
        · exact wrong manifestCandidatePath
        · exact unknown ((describes.sidecars entry.1 entry.2).mp member).1
      simp only [destinations, sources]
      refine .bind (fun _ => Showing sha256 bundle journal) (.ret (fun _ showing => showing))
        (fun _ => ?_)
      refine .bind (fun _ => Showing sha256 bundle journal) (.ret (fun _ showing => showing))
        (fun _ => ?_)
      refine .bind _ (resumePublish_ensures describes) (fun _ => ?_)
      exact removeJournalAndShadows_ensures known

end Phases

/-- The sessions that may follow an interrupted publication. -/
inductive DirectSession where
  | read
  | write
deriving DecidableEq, Repr

def DirectSession.program (sha256 : Bytes → String) (display : DirectPath → String)
    : DirectSession → DirectDisk Bytes Unit
  | .read => beginRead sha256 display
  | .write => beginWrite sha256 display

/-- One session after another, each with its own fates, and how each of them ends. -/
def sessionOutcomes (sha256 : Bytes → String) (display : DirectPath → String)
    : DirectFiles Bytes → List (DirectSession × List (Fate Empty))
      → List (Outcome (DirectFiles Bytes) Empty NativeError Unit)
  | _, [] => []
  | files, (session, fates) :: rest =>
      let outcome := session.program sha256 display files fates
      outcome :: sessionOutcomes sha256 display outcome.state rest

section Sessions

variable {sha256 : Bytes → String} {display : DirectPath → String}
  {bundle : DirectBundle Bytes} {files : DirectFiles Bytes}

/-- Every session keeps what leads to the bundle, and settles it when it ends. -/
theorem DirectSession.program_ensures (sha256 : Bytes → String)
    (display : DirectPath → String) (known : bundle.Known) (session : DirectSession)
    : Ensures (Recoverable sha256 bundle) (fun _ after => Recoverable sha256 bundle after)
        (session.program sha256 display) (fun _ => Settled bundle) (fun _ _ => False) := by
  cases session with
  | read =>
      refine .bind _ readJournal_ensures (fun shown => ?_)
      cases shown with
      | some journal =>
          simp only [Option.isSome_some, if_true]
          exact (recoverWithLock_ensures known).given (fun _ start => start.1)
      | none =>
          simp only [Option.isSome_none, Bool.false_eq_true, if_false]
          refine .ret (fun files start => ⟨start.2.symm, ?_⟩)
          have recoverable := start.1
          simpa only [Recoverable, ← start.2] using recoverable
  | write =>
      exact .bind _ (recoverWithLock_ensures known) (fun _ => cleanupCandidateSet_ensures)

theorem sessionOutcomes_settle (known : bundle.Known)
    {sessions : List (DirectSession × List (Fate Empty))}
    (recoverable : Recoverable sha256 bundle files)
    : ∀ outcome ∈ sessionOutcomes sha256 display files sessions,
        (∀ problem, outcome.exit ≠ .stopped problem)
        ∧ (outcome.exit = .value () → outcome.state.bundle = bundle) := by
  induction sessions generalizing files with
  | nil => simp [sessionOutcomes]
  | cons entry rest ih =>
      obtain ⟨session, fates⟩ := entry
      intro outcome member
      have ensured := session.program_ensures sha256 display known
      have next := ensured.final fates recoverable recoverable
      have ended := (ensured files fates recoverable).2
      rcases List.mem_cons.mp member with rfl | later
      · constructor
        · intro problem stopped
          rw [stopped] at ended
          exact ended
        · intro finished
          rw [finished] at ended
          exact ended.bundle_eq
      · exact ih next outcome later

-----------------------------------------------------------------------------------------
-- The publication
-----------------------------------------------------------------------------------------

/-- A step of the publication: it leads to a state from which the new bundle is recovered, and
it starts from one or writes the first journal.
-/
def PublishStep (sha256 : Bytes → String) (bundle : DirectBundle Bytes)
    (before after : DirectFiles Bytes)
    : Prop :=
  Recoverable sha256 bundle after
  ∧ (after.journal.isSome = true ∨ Recoverable sha256 bundle before)

section Candidates

variable {start : DirectFiles Bytes}
  {allowed : DirectFiles Bytes → DirectFiles Bytes → Prop}
  {failed : NativeError → DirectFiles Bytes → Prop}

theorem sha256Path_ensures {path : DirectPath} {content : Bytes}
    (present : start.file path = some content)
    : Ensures (· = start) allowed (sha256Path sha256 path)
        (fun digest files => files = start ∧ digest = sha256 content) failed := by
  refine .bind _ (readFile_ensures ?_) (fun bytes => .ret ?_)
  · intro files same
    exact ⟨content, by rw [same, present]⟩
  · intro files read
    obtain ⟨rfl, found⟩ := read
    rw [present, Option.some.injEq] at found
    exact ⟨rfl, by rw [found]⟩

theorem sidecarChecksumsOf_ensures (base : DirectPath) (suffixes : List String)
    : Ensures (· = start) allowed (sidecarChecksumsOf sha256 base suffixes)
        (fun found files =>
          files = start
          ∧ ∀ suffix digest,
              (suffix, digest) ∈ found
              ↔ suffix ∈ suffixes
                ∧ (start.file (.sidecar base suffix)).map sha256 = some digest)
        failed := by
  induction suffixes with
  | nil => exact .ret (fun _ same => ⟨same, by simp⟩)
  | cons item rest ih =>
      refine .bind _ (pathExists_ensures _) (fun present => ?_)
      cases held : start.file (.sidecar base item) with
      | some content =>
          refine .assuming (present = true) ?_ (fun here => ?_)
          · intro files observed
            rw [observed.2, observed.1, held]
            rfl
          · simp only [here, if_true]
            refine .bind _ (.given (sha256Path_ensures held) (fun _ seen => seen.1))
              (fun digest => ?_)
            refine .assuming _ (fun _ hashed => hashed.2) (fun hashed => ?_)
            refine .bind _ (ih.given (fun _ seen => seen.1)) (fun others => .ret ?_)
            intro files listed
            refine ⟨listed.1, fun suffix other => ?_⟩
            rw [List.mem_cons, listed.2 suffix other, Prod.mk.injEq, List.mem_cons]
            by_cases equal : suffix = item
            · subst equal
              simp only [held, Option.map_some, Option.some.injEq, true_and, true_or, hashed]
              constructor
              · rintro (same | ⟨-, same⟩)
                · exact same.symm
                · exact same
              · exact fun same => Or.inl same.symm
            · simp [equal]
      | none =>
          refine .assuming (present = false) ?_ (fun absent => ?_)
          · intro files observed
            rw [observed.2, observed.1, held]
            rfl
          · simp only [absent, Bool.false_eq_true, if_false]
            refine (ih.given (fun _ seen => seen.1)).weaken (fun _ seen => seen)
              (fun step => step) ?_ (fun _ _ fallen => fallen)
            intro found files listed
            refine ⟨listed.1, fun suffix digest => ?_⟩
            rw [listed.2 suffix digest, List.mem_cons]
            by_cases equal : suffix = item
            · simp [equal, held]
            · simp [equal]

end Candidates

/-- From the first journal on, every state leads to the candidates. -/
theorem journaled_ensures {start : DirectFiles Bytes} {journal : DirectPublishJournal}
    (describes : Describes sha256 start.candidates journal)
    (prepared : journal.phase = .prepared)
    : Ensures (· = start) (PublishStep sha256 start.candidates)
        (writeJournal journal >>= fun _ =>
          resumePublish sha256 display journal >>= fun _ =>
            removeJournalAndShadows >>= fun _ => cleanupCandidateSet)
        (fun _ => Settled start.candidates) (fun _ _ => False) := by
  have shows (files : DirectFiles Bytes) (same : files = start)
      : Showing sha256 start.candidates journal { files with journal := some journal } := by
    subst same
    refine ⟨rfl, describes, ?_⟩
    rw [prepared]
    refine ⟨⟨fun content held => Or.inl held, ?_⟩, rfl⟩
    intro suffix inside content held
    refine Or.inl ?_
    simpa [DirectFiles.candidates, DirectFiles.bundleAt, inside] using held
  refine .bind (fun _ => Showing sha256 start.candidates journal) (effect_ensures ?_ shows)
    (fun _ => ?_)
  · exact fun files same => ⟨(shows files same).recoverable, Or.inl rfl⟩
  · have known := start.bundleAt_known (.candidate .database) (.candidate .manifest)
    refine Ensures.weaken (Ensures.linked (.bind _ (resumePublish_ensures describes) (fun _ =>
      .bind _ (removeJournalAndShadows_ensures known) (fun _ => cleanupCandidateSet_ensures)))
      (fun _ showing => showing.recoverable)) (fun _ showing => showing) ?_
      (fun _ _ settled => settled) (fun _ _ never => never)
    exact fun steps => ⟨steps.2, Or.inr steps.1⟩

/-- The publication of complete candidates over a store without a journal. -/
theorem publish_ensures {start : DirectFiles Bytes} (idle : start.journal = none)
    (database : start.candidates.database.isSome = true)
    (manifest : start.candidates.manifest.isSome = true)
    : Ensures (· = start) (PublishStep sha256 start.candidates) (publish sha256 display)
        (fun _ => Settled start.candidates) (fun _ _ => False) := by
  obtain ⟨content, hasDatabase⟩ := Option.isSome_iff_exists.mp database
  obtain ⟨record, hasManifest⟩ := Option.isSome_iff_exists.mp manifest
  have databaseAt : start.file (.candidate .database) = some content := hasDatabase
  have manifestAt : start.file (.candidate .manifest) = some record := hasManifest
  refine .bind (fun _ => (· = start)) (.ret (fun _ same => same)) (fun _ => ?_)
  refine .bind (fun _ => (· = start)) ?_ (fun _ => ?_)
  · refine .bind _ readJournal_ensures (fun shown => ?_)
    refine .assuming (shown = none) ?_ (fun absent => ?_)
    · intro files seen
      rw [seen.2, seen.1, idle]
    · subst absent
      exact .ret (fun _ seen => seen.1)
  refine .bind (fun _ => (· = start)) (ensureRegularFile_ensures ?_) (fun _ => ?_)
  · exact fun files same => ⟨content, by rw [same]; exact databaseAt⟩
  refine .bind (fun _ => (· = start)) (ensureRegularFile_ensures ?_) (fun _ => ?_)
  · exact fun files same => ⟨record, by rw [same]; exact manifestAt⟩
  refine .bind _ (sha256Path_ensures databaseAt) (fun dbSha256 => ?_)
  refine .assuming _ (fun _ hashed => hashed.2) (fun dbHashed => ?_)
  refine .bind _ (.given (sha256Path_ensures manifestAt) (fun _ hashed => hashed.1))
    (fun manifestSha256 => ?_)
  refine .assuming _ (fun _ hashed => hashed.2) (fun manifestHashed => ?_)
  refine .bind (fun listed files =>
    files = start
    ∧ ∀ suffix digest,
        (suffix, digest) ∈ listed
        ↔ suffix ∈ directDbSidecarSuffixes
          ∧ (start.file (.sidecar (.candidate .database) suffix)).map sha256 = some digest)
    ?_ (fun sidecarSha256 => ?_)
  · refine .bind _ (.given (sidecarChecksumsOf_ensures (.candidate .database)
      directDbSidecarSuffixes) (fun _ hashed => hashed.1)) (fun found => .ret ?_)
    intro files listed
    exact ⟨listed.1, by simpa only [List.mem_mergeSort] using listed.2⟩
  refine .assuming _ (fun _ listed => listed.2) (fun sidecars => ?_)
  have describes
      : Describes sha256 start.candidates {
          phase := .prepared,
          dbPath := .database,
          dbCandidatePath := .candidate .database,
          manifestPath := .manifest,
          manifestCandidatePath := .candidate .manifest,
          dbSha256,
          manifestSha256,
          sidecarSha256 } := by
    refine ⟨⟨rfl, rfl, rfl, rfl⟩, by simp [hasDatabase, dbHashed],
      by simp [hasManifest, manifestHashed], ?_⟩
    intro suffix digest
    rw [sidecars suffix digest]
    refine and_congr_right (fun inside => ?_)
    simp [DirectFiles.candidates, DirectFiles.bundleAt, inside]
  exact (journaled_ensures describes rfl).given (fun _ listed => listed.1)

/-- A publication that is cut before its first journal has changed nothing; after it, every
state leads to the candidates.
-/
theorem Path.of_publish {start last : DirectFiles Bytes} {trail : List (DirectFiles Bytes)}
    (path : Path (PublishStep sha256 bundle) start trail last) (idle : start.journal = none)
    : if trail.any (fun files => files.journal.isSome) then Recoverable sha256 bundle last
      else Recoverable sha256 start.bundle last := by
  cases path with
  | nil =>
      simp only [List.any_nil, Bool.false_eq_true, if_false]
      exact Settled.recoverable ⟨idle, rfl⟩
  | @cons _ next _ trail step rest =>
      have reached : Recoverable sha256 bundle last :=
        (rest.invariant (fun change _ => change.1) step.1).2
      split
      · exact reached
      · next unseen =>
          rcases step.2 with seen | before
          · simp [seen] at unseen
          · simp only [Recoverable, idle] at before
            exact before ▸ reached

/-- A direct publication is crash-atomic. However it is cut, and however the sessions that
follow are cut, no session fails, and each one that runs to its end leaves exactly the
candidates if the first journal had been written and exactly the old bundle otherwise; the
publication itself never fails, and leaves the candidates when it returns. Witness:
`directPublish_crashAtomic_afterShadow`.
-/
theorem directPublish_crashAtomic (sha256 : Bytes → String) (display : DirectPath → String)
    {start : DirectFiles Bytes} (idle : start.journal = none)
    (database : start.candidates.database.isSome = true)
    (manifest : start.candidates.manifest.isSome = true) (fates : List (Fate Empty))
    (sessions : List (DirectSession × List (Fate Empty)))
    : let publication := publish sha256 display start fates
      (∀ problem, publication.exit ≠ .stopped problem)
      ∧ (publication.exit = .value () → publication.state.bundle = start.candidates)
      ∧ ∀ outcome ∈ sessionOutcomes sha256 display publication.state sessions,
          (∀ problem, outcome.exit ≠ .stopped problem)
          ∧ (outcome.exit = .value ()
            → outcome.state.bundle
              = if publication.trail.any (fun files => files.journal.isSome) then
                  start.candidates
                else start.bundle) := by
  intro publication
  have ensured : Ensures (· = start) (PublishStep sha256 start.candidates)
      (publish sha256 display) _ _ :=
    publish_ensures idle database manifest
  obtain ⟨path, ended⟩ := ensured start fates rfl
  refine ⟨?_, ?_, ?_⟩
  · intro problem stopped
    rw [stopped] at ended
    exact ended
  · intro finished
    rw [finished] at ended
    exact ended.bundle_eq
  · have leads := Path.of_publish path idle
    split at leads
    · next written =>
        rw [if_pos written]
        exact sessionOutcomes_settle (start.bundleAt_known _ _) leads
    · next unwritten =>
        rw [if_neg unwritten]
        exact sessionOutcomes_settle (start.bundleAt_known _ _) leads

end Sessions

/-- An old database with a write-ahead log, and the candidates of a bundle that has a lexicon
instead.
-/
def replacedBundle : DirectFiles Nat where
  file
    | .database => some 1
    | .sidecar .database "wal" => some 2
    | .manifest => some 3
    | .candidate .database => some 11
    | .sidecar (.candidate .database) "search.lexicon.bin" => some 12
    | .candidate .manifest => some 13
    | _ => none
  journal := none

/-- The fates of a publication that dies with the old database set aside and the new one not
yet in place.
-/
def afterShadow : List (Fate Empty) :=
  List.replicate 22 .proceed ++ [.crash]

/-- A reader dies while it recovers the publication, and the next one finishes. -/
theorem directPublish_crashAtomic_afterShadow
    : let publication := publish toString (fun _ => "") replacedBundle afterShadow
      publication.state.file .database = none
      ∧ publication.state.file .manifest = some 3
      ∧ ∀ outcome ∈ sessionOutcomes toString (fun _ => "") publication.state
          [(.read, List.replicate 12 .proceed ++ [.crash]), (.read, [])],
          outcome.exit = .value () → outcome.state.bundle = replacedBundle.candidates := by
  intro publication
  have idle : replacedBundle.journal = none := rfl
  have whole := directPublish_crashAtomic toString (fun _ => "") idle rfl rfl afterShadow
    [(.read, List.replicate 12 .proceed ++ [.crash]), (.read, [])]
  have written : publication.trail.any (fun files => files.journal.isSome) = true := by
    decide
  refine ⟨by decide, by decide, ?_⟩
  intro outcome member finished
  have settled := (whole.2.2 outcome member).2 finished
  rwa [if_pos written] at settled

end CodebaseGraph.Storage.Direct
