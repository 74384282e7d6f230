import CodebaseGraph.Transition.Fallible
import CodebaseGraph.Wiki.Text

/-! The routes of the rendered site (`crates/k-wiki/src/render/mod.rs`): every page has its own
directory below the base path, named by percent-encoded segments.
-/

namespace CodebaseGraph.Wiki.Render

structure RenderError where
  message : String
deriving DecidableEq, Repr

-- Text

/-- `str::replace` with one character for pattern. -/
def replaceCharacter (old : Char) (new text : String) : String :=
  String.ofList
    (text.toList.flatMap (fun character => if character = old then new.toList else [character]))

def escapeHtml (value : String) : String :=
  replaceCharacter '\'' "&#39;"
    (replaceCharacter '"' "&quot;"
      (replaceCharacter '>' "&gt;" (replaceCharacter '<' "&lt;" (replaceCharacter '&' "&amp;" value))))

def escapeAttribute (value : String) : String := escapeHtml value

/-- A number in lower-case hexadecimal digits, at least `width` of them. -/
def lowerHex (width value : Nat) : String :=
  let digits := Nat.toDigits 16 value
  String.ofList (List.replicate (width - digits.length) '0' ++ digits)

def isFragmentCharacter (character : Char) : Bool :=
  character.isAlphanum || character = '-' || character = '_' || character = ':' || character = '.'

def escapeFragmentIdentifier (fragment : String) : String :=
  String.join
    (fragment.toList.map
      (fun character =>
        if isFragmentCharacter character then String.singleton character
        else lowerHex 1 character.toNat))

-- Segments

/-- `char::is_control`: the Unicode category `Cc`. -/
def isControl (character : Char) : Bool :=
  character.toNat < 32 || (127 ≤ character.toNat && character.toNat < 160)

def validateLogicalSegment (segment : String) : Except RenderError Unit :=
  if segment = "" ∨ segment = "." ∨ segment = ".." then
    .error ⟨"route segment is not allowed: " ++ segment⟩
  else if segment.toList.contains '/' || segment.toList.contains '\\' then
    .error ⟨"route segment contains a path separator: " ++ segment⟩
  else if segment.toList.any isControl then
    .error ⟨"route segment contains control characters: " ++ segment⟩
  else .ok ()

/-- The bytes of a text. -/
def bytesOf (text : String) : List UInt8 := text.toByteArray.data.toList

def isUnreserved (byte : UInt8) : Bool :=
  (65 ≤ byte && byte ≤ 90) || (97 ≤ byte && byte ≤ 122) || (48 ≤ byte && byte ≤ 57)
    || byte = 45 || byte = 46 || byte = 95 || byte = 126

def upperHexDigit (digit : Nat) : Char :=
  Char.ofNat (if digit < 10 then 48 + digit else 55 + digit)

def encodeByte (byte : UInt8) : List Char :=
  if isUnreserved byte then [Char.ofNat byte.toNat]
  else ['%', upperHexDigit (byte.toNat / 16), upperHexDigit (byte.toNat % 16)]

def encodeSegment (segment : String) : Except RenderError String := do
  validateLogicalSegment segment
  return String.ofList ((bytesOf segment).flatMap encodeByte)

def hexValue (value : UInt8) : Except RenderError UInt8 :=
  if 48 ≤ value ∧ value ≤ 57 then .ok (value - 48)
  else if 97 ≤ value ∧ value ≤ 102 then .ok (value - 97 + 10)
  else if 65 ≤ value ∧ value ≤ 70 then .ok (value - 65 + 10)
  else
    .error
      ⟨"invalid percent-encoded nibble: " ++ String.singleton (Char.ofNat value.toNat)⟩

/-- The bytes that the bytes of an encoded segment stand for. -/
def decodeBytes (segment : String) : List UInt8 → Except RenderError (List UInt8)
  | [] => .ok []
  | 37 :: high :: low :: rest => do
      let high ← hexValue high
      let low ← hexValue low
      return (high <<< 4 ||| low) :: (← decodeBytes segment rest)
  | 37 :: _ => .error ⟨"invalid percent-encoding in route segment: " ++ segment⟩
  | byte :: rest => do return byte :: (← decodeBytes segment rest)

def decodeSegment (segment : String) : Except RenderError String := do
  let decoded ← decodeBytes segment (bytesOf segment)
  match String.fromUTF8? ⟨decoded.toArray⟩ with
  | none => throw ⟨"route segment is not valid utf-8: " ++ segment⟩
  | some decoded => do
      validateLogicalSegment decoded
      return decoded

def validateSegments : List String → Except RenderError (List String)
  | [] => .ok []
  | segment :: rest => do
      validateLogicalSegment segment
      return segment :: (← validateSegments rest)

def splitLogicalPath (path : String) : Except RenderError (List String) :=
  validateSegments ((splitOn '/' path).filter (· ≠ ""))

def encodePathSegments (path : String) : Except RenderError (List String) := do
  (← splitLogicalPath path).mapM encodeSegment

def conceptParentPath (conceptId : String) : String :=
  let segments := (splitOn '/' conceptId).filter (· ≠ "")
  if segments.length ≤ 1 then "" else joinWith '/' segments.dropLast

def displayDirectoryPath (path : String) : String :=
  if path = "" then "Bundle root" else replaceCharacter '/' " / " path

-----------------------------------------------------------------------------------------
-- Routes
-----------------------------------------------------------------------------------------

/-- A route and the components of the file it is written to. -/
structure RouteTarget where
  route : String
  outputPath : List String
deriving DecidableEq, Repr

structure RouteHelper where
  baseSegments : List String

namespace RouteHelper

def new (basePath : String) : Except RenderError RouteHelper := do
  return ⟨← ((splitOn '/' basePath).filter (· ≠ "")).mapM encodeSegment⟩

variable (routes : RouteHelper)

def pageOwnedWithFragment (segments : List String) (fragment : Option String) : RouteTarget :=
  let routeSegments := routes.baseSegments ++ segments
  let route := if routeSegments = [] then "/" else "/" ++ joinWith '/' routeSegments ++ "/"
  {
    route :=
      match fragment with
      | some fragment => route ++ "#" ++ escapeFragmentIdentifier fragment
      | none => route
    outputPath := routeSegments ++ ["index.html"]
  }

def page (segments : List String) : RouteTarget := routes.pageOwnedWithFragment segments none

def assetOwned (segments : List String) : RouteTarget :=
  let routeSegments := routes.baseSegments ++ segments
  {
    route := if routeSegments = [] then "/" else "/" ++ joinWith '/' routeSegments
    outputPath := routeSegments
  }

def home : RouteTarget := routes.page []

def bundle (bundleId : String) : Except RenderError RouteTarget := do
  return routes.page ["b", ← encodeSegment bundleId]

def directory (bundleId directoryPath : String) : Except RenderError RouteTarget := do
  let bundleSegment ← encodeSegment bundleId
  return routes.page (["b", bundleSegment, "d"] ++ (← encodePathSegments directoryPath))

def concept (bundleId conceptId : String) (fragment : Option String)
    : Except RenderError RouteTarget := do
  let bundleSegment ← encodeSegment bundleId
  return routes.pageOwnedWithFragment
    (["b", bundleSegment, "c"] ++ (← encodePathSegments conceptId)) fragment

def conceptSourceDirectory (bundleId conceptId : String) : Except RenderError RouteTarget :=
  let directoryPath := conceptParentPath conceptId
  if directoryPath = "" then routes.bundle bundleId else routes.directory bundleId directoryPath

/-- The page of one value of a facet. -/
def facet (kind bundleId value : String) : Except RenderError RouteTarget := do
  let bundleSegment ← encodeSegment bundleId
  return routes.page ["b", bundleSegment, kind, ← encodeSegment value]

def typeFacet (bundleId value : String) : Except RenderError RouteTarget :=
  routes.facet "type" bundleId value

def tagFacet (bundleId value : String) : Except RenderError RouteTarget :=
  routes.facet "tag" bundleId value

/-- A page that every bundle has once. -/
def bundlePage (name bundleId : String) (fragment : Option String)
    : Except RenderError RouteTarget := do
  return routes.pageOwnedWithFragment ["b", ← encodeSegment bundleId, name] fragment

def search (bundleId : String) : Except RenderError RouteTarget :=
  routes.bundlePage "search" bundleId none

def graph (bundleId : String) : Except RenderError RouteTarget :=
  routes.bundlePage "graph" bundleId none

def changes (bundleId : String) : Except RenderError RouteTarget :=
  routes.bundlePage "changes" bundleId none

def diagnostics (bundleId : String) (anchor : Option String) : Except RenderError RouteTarget :=
  routes.bundlePage "diagnostics" bundleId anchor

def asset (relativePath : String) : Except RenderError RouteTarget := do
  return routes.assetOwned (← ((splitOn '/' relativePath).filter (· ≠ "")).mapM encodeSegment)

end RouteHelper

-- The manifest

inductive RouteKind where
  | home
  | bundle
  | directory
  | concept
  | typeFacet
  | tagFacet
  | search
  | graph
  | changes
  | diagnostics
  | asset
  | manifest
deriving DecidableEq, Repr

structure ManifestEntry where
  kind : RouteKind
  route : String
  outputPath : String
  title : String
deriving DecidableEq, Repr

end CodebaseGraph.Wiki.Render

/-! Percent-encoding of the segments of a route: which segments it takes, and that decoding reads
them back.
-/

namespace CodebaseGraph.Wiki.Render

open CodebaseGraph.Transition

-- Valid segments

/-- The characters a segment may have. -/
def isSegmentCharacter (character : Char) : Bool :=
  character ≠ '/' && character ≠ '\\' && !isControl character

structure ValidSegment (segment : String) : Prop where
  named : segment ≠ "" ∧ segment ≠ "." ∧ segment ≠ ".."
  plain : ∀ character ∈ segment.toList, isSegmentCharacter character = true

theorem validateLogicalSegment_eq_ok {segment : String}
    : validateLogicalSegment segment = .ok () ↔ ValidSegment segment := by
  simp only [validateLogicalSegment, unless_eq_ok, not_or, and_true]
  constructor
  · rintro ⟨named, unseparated, uncontrolled⟩
    refine ⟨named, ?_⟩
    intro character inside
    simp only [Bool.or_eq_true, List.contains_eq_mem, decide_eq_true_eq, not_or] at unseparated
    simp only [List.any_eq_true, not_exists, not_and] at uncontrolled
    have slash : character ≠ '/' := fun same => unseparated.1 (same ▸ inside)
    have backslash : character ≠ '\\' := fun same => unseparated.2 (same ▸ inside)
    simp [isSegmentCharacter, slash, backslash, uncontrolled character inside]
  · rintro ⟨named, plain⟩
    refine ⟨named, ?_, ?_⟩
    · have slash : '/' ∉ segment.toList := fun inside => absurd (plain _ inside) (by decide)
      have backslash : '\\' ∉ segment.toList := fun inside => absurd (plain _ inside) (by decide)
      simp [slash, backslash]
    · simp only [List.any_eq_true, not_exists, not_and]
      intro character inside control
      simpa [isSegmentCharacter, control] using plain character inside

instance (segment : String) : Decidable (ValidSegment segment) :=
  decidable_of_iff ((segment ≠ "" ∧ segment ≠ "." ∧ segment ≠ "..")
    ∧ segment.toList.all isSegmentCharacter = true)
    ⟨fun holds => ⟨holds.1, List.all_eq_true.mp holds.2⟩,
      fun holds => ⟨holds.named, List.all_eq_true.mpr holds.plain⟩⟩

-----------------------------------------------------------------------------------------
-- Encoding
-----------------------------------------------------------------------------------------

/-- The text that stands for a segment in a route. -/
def encodedText (segment : String) : String := String.ofList ((bytesOf segment).flatMap encodeByte)

theorem encodeSegment_eq_ok {segment encoded : String}
    : encodeSegment segment = .ok encoded ↔ ValidSegment segment ∧ encodedText segment = encoded := by
  rw [encodeSegment, bind_eq_ok]
  constructor
  · rintro ⟨⟨⟩, valid, returned⟩
    exact ⟨validateLogicalSegment_eq_ok.mp valid, Except.ok.inj returned⟩
  · rintro ⟨valid, rfl⟩
    exact ⟨(), validateLogicalSegment_eq_ok.mpr valid, rfl⟩

theorem mapM_encodeSegment_eq_ok {segments encoded : List String}
    : segments.mapM encodeSegment = .ok encoded
      ↔ (∀ segment ∈ segments, ValidSegment segment) ∧ segments.map encodedText = encoded := by
  rw [mapM_eq_ok]
  induction segments generalizing encoded with
  | nil =>
      rw [List.forall₂_nil_left_iff]
      simp [eq_comm]
  | cons segment rest ih =>
      rw [List.forall₂_cons_left_iff, List.forall_mem_cons, List.map_cons]
      constructor
      · rintro ⟨first, later, here, there, rfl⟩
        obtain ⟨valid, rfl⟩ := encodeSegment_eq_ok.mp here
        obtain ⟨others, rfl⟩ := ih.mp there
        exact ⟨⟨valid, others⟩, rfl⟩
      · rintro ⟨⟨valid, others⟩, rfl⟩
        exact ⟨_, _, encodeSegment_eq_ok.mpr ⟨valid, rfl⟩, ih.mpr ⟨others, rfl⟩, rfl⟩

/-- A character of one byte. -/
def isAsciiCharacter (character : Char) : Bool := character.val ≤ 127

/-- What the encoding writes for one hexadecimal digit, and what decoding reads. -/
theorem upperHexDigit_facts
    : ∀ digit < 16,
        (isAsciiCharacter (upperHexDigit digit) = true ∧ upperHexDigit digit ≠ '/')
        ∧ hexValue (upperHexDigit digit).val.toUInt8 = .ok (UInt8.ofNat digit) := by
  decide

theorem hexDigits_join
    : ∀ value < 256,
        UInt8.ofNat (value / 16) <<< 4 ||| UInt8.ofNat (value % 16) = UInt8.ofNat value := by
  decide +kernel

/-- A byte that stands for itself is no per cent sign. -/
theorem unreserved_facts
    : ∀ value < 256,
        isUnreserved (UInt8.ofNat value) = true
        → (isAsciiCharacter (Char.ofNat value) = true ∧ Char.ofNat value ≠ '/')
          ∧ (Char.ofNat value).val.toUInt8 = UInt8.ofNat value
          ∧ UInt8.ofNat value ≠ 37 := by
  decide +kernel

theorem encodeByte_unreserved {byte : UInt8} (unreserved : isUnreserved byte = true)
    : encodeByte byte = [Char.ofNat byte.toNat] := by
  rw [encodeByte, if_pos unreserved]

theorem encodeByte_reserved {byte : UInt8} (reserved : ¬isUnreserved byte = true)
    : encodeByte byte
      = ['%', upperHexDigit (byte.toNat / 16), upperHexDigit (byte.toNat % 16)] := by
  rw [encodeByte, if_neg reserved]

theorem encodeByte_plain (byte : UInt8)
    : ∀ character ∈ encodeByte byte, isAsciiCharacter character = true ∧ character ≠ '/' := by
  have bound := byte.toNat_lt
  by_cases unreserved : isUnreserved byte = true
  · have facts := unreserved_facts byte.toNat bound (by rwa [UInt8.ofNat_toNat])
    rw [encodeByte_unreserved unreserved, List.forall_mem_singleton]
    exact facts.1
  · rw [encodeByte_reserved unreserved]
    have high := (upperHexDigit_facts (byte.toNat / 16) (by omega)).1
    have low := (upperHexDigit_facts (byte.toNat % 16) (by omega)).1
    intro character inside
    simp only [List.mem_cons, List.not_mem_nil, or_false] at inside
    rcases inside with rfl | rfl | rfl
    · decide
    · exact high
    · exact low

/-- Decoding takes the encoding of a byte back to the byte. -/
theorem decodeBytes_encodeByte (text : String) (byte : UInt8) (rest : List UInt8)
    : decodeBytes text
        ((encodeByte byte).map (fun character => character.val.toUInt8) ++ rest)
      = (do return byte :: (← decodeBytes text rest)) := by
  have bound := byte.toNat_lt
  by_cases unreserved : isUnreserved byte = true
  · have facts := unreserved_facts byte.toNat bound (by rwa [UInt8.ofNat_toNat])
    rw [UInt8.ofNat_toNat] at facts
    rw [encodeByte_unreserved unreserved, List.map_singleton, facts.2.1, List.singleton_append]
    exact decodeBytes.eq_4 text byte rest
      (fun high low more other => absurd other facts.2.2)
      (fun other => absurd other facts.2.2)
  · have high := (upperHexDigit_facts (byte.toNat / 16) (by omega)).2
    have low := (upperHexDigit_facts (byte.toNat % 16) (by omega)).2
    have joined := hexDigits_join byte.toNat bound
    rw [UInt8.ofNat_toNat] at joined
    rw [encodeByte_reserved unreserved]
    have percent : ('%' : Char).val.toUInt8 = 37 := by decide
    simp only [List.map_cons, List.map_nil, List.cons_append, List.nil_append, percent]
    rw [decodeBytes, high, low]
    exact congrArg (fun first => decodeBytes text rest >>= fun others => .ok (first :: others)) joined

/-- The bytes of a text of characters of one byte. -/
theorem bytesOf_ascii {characters : List Char}
    (ascii : ∀ character ∈ characters, isAsciiCharacter character = true)
    : bytesOf (String.ofList characters)
      = characters.map (fun character => character.val.toUInt8) := by
  rw [bytesOf, String.toByteArray_ofList]
  induction characters with
  | nil => simp
  | cons character rest ih =>
      have one : character.utf8Size = 1 := by
        have small := ascii character List.mem_cons_self
        simp only [isAsciiCharacter, decide_eq_true_eq] at small
        simp [Char.utf8Size, small]
      have others := ih (fun other inside => ascii other (List.mem_cons_of_mem _ inside))
      rw [List.utf8Encode_cons, List.utf8Encode_singleton, String.utf8EncodeChar_eq_singleton one,
        ByteArray.data_append, Array.toList_append, others, List.map_cons]
      rfl

/-- A segment's encoding is decoded to the segment. -/
theorem decodeBytes_encodedText (text segment : String)
    : decodeBytes text (bytesOf (encodedText segment)) = .ok (bytesOf segment) := by
  rw [encodedText, bytesOf_ascii (by
    intro character inside
    obtain ⟨byte, -, written⟩ := List.mem_flatMap.mp inside
    exact (encodeByte_plain byte character written).1)]
  induction bytesOf segment with
  | nil => rfl
  | cons byte rest ih =>
      rw [List.flatMap_cons, List.map_append, decodeBytes_encodeByte, ih]
      rfl

theorem fromUTF8?_bytesOf (text : String)
    : String.fromUTF8? ⟨(bytesOf text).toArray⟩ = some text := by
  have whole : (⟨(bytesOf text).toArray⟩ : ByteArray) = text.toByteArray := by
    rw [bytesOf, Array.toArray_toList]
  rw [whole, String.fromUTF8?, dif_pos text.isValidUTF8]
  rfl

theorem decodeSegment_encodedText {segment : String} (valid : ValidSegment segment)
    : decodeSegment (encodedText segment) = .ok segment := by
  rw [decodeSegment, decodeBytes_encodedText]
  simp only [bind, Except.bind, fromUTF8?_bytesOf, validateLogicalSegment_eq_ok.mpr valid]
  rfl

/-- Different segments have different encodings. -/
theorem encodedText_inj {first second : String} (same : encodedText first = encodedText second)
    : first = second := by
  have bytes : bytesOf first = bytesOf second := by
    have left := decodeBytes_encodedText "" first
    rw [same, decodeBytes_encodedText] at left
    exact (Except.ok.inj left).symm
  have texts := fromUTF8?_bytesOf first
  rw [bytes, fromUTF8?_bytesOf] at texts
  exact (Option.some.inj texts).symm

theorem slash_notMem_encodedText (segment : String) : '/' ∉ (encodedText segment).toList := by
  rw [encodedText, String.toList_ofList]
  intro inside
  obtain ⟨byte, -, written⟩ := List.mem_flatMap.mp inside
  exact (encodeByte_plain byte _ written).2 rfl

/-- The encoding of a valid segment names a file. -/
theorem encodedText_named {segment : String} (valid : ValidSegment segment)
    : encodedText segment ≠ "" ∧ encodedText segment ≠ "." ∧ encodedText segment ≠ ".." := by
  have empty : encodedText "" = "" := by decide
  have dot : encodedText "." = "." := by decide
  have dots : encodedText ".." = ".." := by decide
  refine ⟨fun same => ?_, fun same => ?_, fun same => ?_⟩
  · exact valid.named.1 (encodedText_inj (same.trans empty.symm))
  · exact valid.named.2.1 (encodedText_inj (same.trans dot.symm))
  · exact valid.named.2.2 (encodedText_inj (same.trans dots.symm))

end CodebaseGraph.Wiki.Render
