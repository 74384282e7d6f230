import CodebaseGraph.Collections.Lists
import CodebaseGraph.Crash.Program
import CodebaseGraph.Storage.Maintenance.ControlCodec
import CodebaseGraph.Transition.Runs

/-! Updates of the control regions (`src/storage/maintenance_controls.rs`,
`src/storage/maintenance_generation_gate.rs`): the publications under a lease, and the plan of a
removal with its recovery. A plan is written region by region, and may end after any byte.
-/

namespace CodebaseGraph.Storage.Maintenance

open CodebaseGraph.Collections CodebaseGraph.Crash CodebaseGraph.Transition

-- Regions

inductive Region where
  | commit
  | intent
  | slot (index : Nat)
deriving DecidableEq, Repr

/-- The two regions of the selector file, and the two data files. -/
structure ControlFiles where
  commit : Bytes
  intent : Bytes
  slots : List Bytes
deriving DecidableEq, Repr

namespace ControlFiles

def read (files : ControlFiles) : Region → Bytes
  | .commit => files.commit
  | .intent => files.intent
  | .slot index => files.slots[index]?.getD []

def write (files : ControlFiles) (bytes : Bytes) : Region → ControlFiles
  | .commit => { files with commit := bytes }
  | .intent => { files with intent := bytes }
  | .slot index => { files with slots := files.slots.set index bytes }

end ControlFiles

/-- One write of a plan, and the payload whose update it belongs to. -/
structure TransportStep where
  region : Region
  bytes : Bytes
  payload : Bytes
deriving DecidableEq, Repr

-- The gate of a removal

inductive GateState where
  | idle
  | removing (generation : Bytes) (length : UInt8) (directory origin finalRecord : FileIdentity)
    (proofDigest : Bytes)
deriving DecidableEq, Repr

variable (sha256 : Bytes → Bytes) (incarnation : Bytes)

/-- `id_put`. -/
def identityBytes (identity : FileIdentity) : Bytes :=
  littleEndian 8 identity.volume ++ littleEndian 8 identity.index

/-- `id_get`. -/
def identityOf (bytes : Bytes) : FileIdentity :=
  { volume := number (field bytes 0 8), index := number (field bytes 8 8) }

/-- The ASCII codes of `CGGRMV01`. -/
def gateMagic : Bytes := [67, 71, 71, 82, 77, 86, 48, 49]

def GateState.encode : GateState → Bytes
  | .idle => finished sha256 (gateMagic ++ List.replicate 216 0)
  | .removing generation length directory origin finalRecord proofDigest =>
      finished sha256
        (gateMagic ++ [1, length] ++ List.replicate 6 0 ++ generation ++ identityBytes directory
          ++ identityBytes origin ++ identityBytes finalRecord ++ proofDigest)

/-- Letters, digits, `-` and `_`. -/
def nameByte (byte : UInt8) : Bool :=
  (48 ≤ byte && byte ≤ 57) || (65 ≤ byte && byte ≤ 90) || (97 ≤ byte && byte ≤ 122)
    || byte = 45 || byte = 95

/-- Whether `gen_name` accepts a padded name of a length. -/
def generationName (name : Bytes) (length : Nat) : Bool :=
  0 < length && length ≤ 128 && (name.take length).all nameByte && (name.drop length).all (· = 0)

def GateState.decode (bytes : Bytes) : Option GateState :=
  if bytes.length ≠ 256
      ∨ field bytes 0 8 ≠ gateMagic
      ∨ (field bytes 10 6).any (· ≠ 0)
      ∨ sha256 (bytes.take 224) ≠ bytes.drop 224 then
    none
  else if bytes[8]? = some 0 then
    if (field bytes 9 215).all (· = 0) then some .idle else none
  else if bytes[8]? = some 1 then
    let length := bytes[9]?.getD 0
    if generationName (field bytes 16 128) length.toNat then
      some
        (.removing (field bytes 16 128) length (identityOf (field bytes 144 16))
          (identityOf (field bytes 160 16)) (identityOf (field bytes 176 16)) (field bytes 192 32))
    else none
  else none

-- Plans

def factOf {α : Type} (decoded : Except ControlFailure α) : Option α := decoded.toOption

/-- What the regions say. -/
def observedStep (files : ControlFiles) : RecoveryStep :=
  recoveryStep (factOf (decodeCommit sha256 incarnation files.commit))
    (factOf (decodeIntent sha256 incarnation files.intent))
    (files.slots.map (fun slot => factOf (decodeSlot sha256 incarnation slot)))

/-- The three writes of an update, and what they commit. -/
def transition (current : CommitFact) (payload : Bytes)
    : Option (CommitFact × List TransportStep) := do
  let generation ← checkedAdd current.generation 1
  let (slot, fact) ← factOf (encodeSlot sha256 incarnation generation payload)
  let (intent, intended) ← factOf (encodeIntent sha256 incarnation current slot)
  let next : CommitFact :=
    { generation, active := intended.target, slotDigest := fact.digest }
  let commit ← factOf (encodeCommit sha256 incarnation next)
  return (
    next,
    [
      { region := .intent, bytes := intent, payload },
      { region := .slot intended.target, bytes := slot, payload },
      { region := .commit, bytes := commit, payload }
    ]
  )

/-- The payload in a slot image. -/
def slotPayload (image : Bytes) : Option Bytes :=
  (factOf (decodeSlot sha256 incarnation image)).map
    (fun slot => field image 56 slot.payloadLength)

/-- The commit of an intended slot, after it was rewritten or as it is. -/
def intendedPlan (files : ControlFiles) (intent : IntentFact) (rewrite : Bool)
    : Option (CommitFact × Bytes × List TransportStep) := do
  let intended := field files.intent 96 slotBytes
  let next : CommitFact :=
    { generation := intent.after, active := intent.target, slotDigest := intent.slotDigest }
  let commit ← factOf (encodeCommit sha256 incarnation next)
  let payload ← slotPayload sha256 incarnation intended
  let slot : List TransportStep :=
    if rewrite then [{ region := .slot intent.target, bytes := intended, payload }] else []
  return (next, intended, slot ++ [{ region := .commit, bytes := commit, payload }])

/-- What is in force after recovery, its slot image, and the writes that recovery takes. -/
def recoveryPlan (files : ControlFiles) : Option (CommitFact × Bytes × List TransportStep) :=
  match observedStep sha256 incarnation files with
  | .committed commit => (files.slots[commit.active]?).map (fun image => (commit, image, []))
  | .rewriteIntendedSlot intent => intendedPlan sha256 incarnation files intent true
  | .commitIntendedSlot intent => intendedPlan sha256 incarnation files intent false
  | .unknown => none

/-- `RemovalScratch::new`: recovery, the step into the removal when it is not there yet, and the
step back.
-/
def removalPlan (removing : GateState) (files : ControlFiles) : Option (List TransportStep) := do
  let (current, image, recovery) ← recoveryPlan sha256 incarnation files
  let payload ← slotPayload sha256 incarnation image
  let initial ← GateState.decode sha256 payload
  if initial ≠ .idle ∧ initial ≠ removing then none
  else
    let (closing, close) ←
      if initial = .idle then transition sha256 incarnation current (removing.encode sha256)
      else some (current, [])
    let (_, reopen) ← transition sha256 incarnation closing (GateState.idle.encode sha256)
    return recovery ++ close ++ reopen

/-- The files of a fresh root. -/
def initializeCreationControls (initial : Bytes) : Option ControlFiles := do
  let (first, fact) ← factOf (encodeSlot sha256 incarnation 0 initial)
  let (second, _) ← factOf (encodeSlot sha256 incarnation 0 [])
  let commit ←
    factOf
      (encodeCommit sha256 incarnation { generation := 0, active := 0, slotDigest := fact.digest })
  return { commit, intent := List.replicate intentBytes 0, slots := [first, second] }

def initializeFreshGenerationGate : Option ControlFiles :=
  initializeCreationControls sha256 incarnation (GateState.idle.encode sha256)

-- Steps

inductive ControlProcess where
  /-- Nobody writes; whoever did has returned or died. -/
  | idle
  /-- A usable `RootPublicationLease`. -/
  | leased (commit : CommitFact)
  /-- A plan under way: what the region of its first write held before, and the lease that
  stands when all is written.
  -/
  | writing (lease : Option CommitFact) (before : Bytes) (step : TransportStep)
    (rest : List TransportStep)
deriving DecidableEq, Repr

structure ControlWorld where
  files : ControlFiles
  process : ControlProcess := .idle
deriving DecidableEq, Repr

inductive ControlAction where
  | tryBeginPublication
  | publishPrimaryControl (payload : Bytes)
  | recover
  | remove (removing : GateState)
  /-- The first write of the plan reaches so many bytes. -/
  | write (count : Nat)
  /-- The write was synced and read back. -/
  | written
  /-- The process returns, fails or dies. -/
  | stop
deriving DecidableEq, Repr

inductive ControlEvent where
  | quiet
  /-- The intent of an update is whole. -/
  | intended (payload : Bytes)
  /-- The commit of an update is whole, and was reported. -/
  | done (payload : Bytes)
deriving DecidableEq, Repr

/-- Whether a region has no record in it. -/
def unreadable (region : Region) (bytes : Bytes) : Bool :=
  match region with
  | .commit => (factOf (decodeCommit sha256 incarnation bytes)).isNone
  | .intent => (factOf (decodeIntent sha256 incarnation bytes)).isNone
  | .slot _ => (factOf (decodeSlot sha256 incarnation bytes)).isNone

/-- The process that goes on with a plan. -/
def proceed (lease : Option CommitFact) (files : ControlFiles)
    : List TransportStep → ControlProcess
  | [] => lease.elim .idle .leased
  | step :: rest => .writing lease (files.read step.region) step rest

def controlStep : StepFn ControlWorld ControlAction ControlEvent :=
  fun world action =>
    match action, world.process with
    | .tryBeginPublication, .idle =>
        match observedStep sha256 incarnation world.files with
        | .committed commit => some (.quiet, { world with process := .leased commit })
        | _ => none
    | .publishPrimaryControl payload, .leased commit =>
        if factOf (decodeCommit sha256 incarnation world.files.commit) ≠ some commit then none
        else
          (transition sha256 incarnation commit payload).map
            (fun (next, steps) =>
              (.quiet, { world with process := proceed (some next) world.files steps }))
    | .recover, .idle =>
        (recoveryPlan sha256 incarnation world.files).map
          (fun (_, _, steps) => (.quiet, { world with process := proceed none world.files steps }))
    | .remove removing, .idle =>
        (removalPlan sha256 incarnation removing world.files).map
          (fun steps => (.quiet, { world with process := proceed none world.files steps }))
    | .write count, .writing _ before step _ =>
        let held := world.files.read step.region
        let content := overwritten held step.bytes count
        -- a mixture of the old and the new record is no record
        if content = before ∨ content = step.bytes
            ∨ unreadable sha256 incarnation step.region content then
          some
            (
              if step.region = .intent ∧ content = step.bytes ∧ held ≠ step.bytes then
                .intended step.payload
              else .quiet,
              { world with files := world.files.write content step.region }
            )
        else none
    | .written, .writing lease _ step rest =>
        if world.files.read step.region = step.bytes then
          some
            (
              if step.region = .commit then .done step.payload else .quiet,
              { world with process := proceed lease world.files rest }
            )
        else none
    | .stop, _ => some (.quiet, { world with process := .idle })
    | _, _ => none

end CodebaseGraph.Storage.Maintenance
