import CodebaseGraph.Protocol.Profiles
import CodebaseGraph.Syntax.Relations

/-! What equal compatibility digests promise about two requests.
The digest forgets the order between profiles of different languages and between capture
mappings of different names, while the lookups let the last profile and the first mapping win.
-/

namespace CodebaseGraph.Protocol

open CodebaseGraph.Sorting CodebaseGraph.Syntax

variable {text : TextFunctions}

-----------------------------------------------------------------------------------------
-- The lookups as searches
-----------------------------------------------------------------------------------------

/-- A profile lists a suffix, in any case. -/
def LanguageProfile.declares (text : TextFunctions) (key : String)
    (profile : LanguageProfile)
    : Bool :=
  profile.suffixes.any (fun suffix => key = text.toLowercase suffix)

theorem byLanguage_foldl_add (profiles : List LanguageProfile) (set : ProfileSet)
    (language : String)
    : (profiles.foldl (ProfileSet.add text) set).byLanguage language
      = ((profiles.filter (·.language = language)).getLast?).or (set.byLanguage language) := by
  induction profiles generalizing set with
  | nil => simp
  | cons profile rest ih =>
      rw [List.foldl_cons, ih]
      by_cases same : profile.language = language
      · simp only [ProfileSet.add, same, if_true, decide_true, List.filter_cons_of_pos,
          List.getLast?_cons]
        cases (rest.filter (·.language = language)).getLast? <;> simp
      · simp [ProfileSet.add, same, Ne.symm same]

theorem suffixToLanguage_add (set : ProfileSet) (profile : LanguageProfile) (key : String)
    : (set.add text profile).suffixToLanguage key
      = if profile.declares text key then some profile.language
        else set.suffixToLanguage key := by
  have scan (suffixes : List String) (map : String → Option String)
      : suffixes.foldl
          (fun map suffix key =>
            if key = text.toLowercase suffix then some profile.language else map key)
          map key
        = if suffixes.any (fun suffix => key = text.toLowercase suffix) then
            some profile.language
          else map key := by
    induction suffixes generalizing map with
    | nil => simp
    | cons suffix rest ih =>
        rw [List.foldl_cons, ih]
        by_cases later : rest.any (fun suffix => key = text.toLowercase suffix)
        · simp [later]
        · by_cases here : key = text.toLowercase suffix <;> simp [later, here]
  exact scan profile.suffixes set.suffixToLanguage

theorem suffixToLanguage_foldl_add (profiles : List LanguageProfile) (set : ProfileSet)
    (key : String)
    : (profiles.foldl (ProfileSet.add text) set).suffixToLanguage key
      = (((profiles.filter (·.declares text key)).getLast?).map LanguageProfile.language).or
          (set.suffixToLanguage key) := by
  induction profiles generalizing set with
  | nil => simp
  | cons profile rest ih =>
      rw [List.foldl_cons, ih, suffixToLanguage_add]
      by_cases declared : profile.declares text key
      · simp only [declared, if_true, List.filter_cons_of_pos, List.getLast?_cons]
        cases (rest.filter (·.declares text key)).getLast? <;> simp
      · simp [declared]

theorem profileForLanguage_new (profiles : List LanguageProfile) (language : String)
    : (ProfileSet.new text profiles).profileForLanguage language
      = ((profiles.filter (·.language = language)).getLast?).or
          ((builtInProfiles.filter (·.language = language)).getLast?) := by
  simp only [ProfileSet.profileForLanguage, ProfileSet.new, byLanguage_foldl_add,
    List.foldl_append, Option.or_none]

theorem suffixToLanguage_new (profiles : List LanguageProfile) (key : String)
    : (ProfileSet.new text profiles).suffixToLanguage key
      = (((profiles.filter (·.declares text key)).getLast?).map LanguageProfile.language).or
          (((builtInProfiles.filter (·.declares text key)).getLast?).map
            LanguageProfile.language) := by
  simp only [ProfileSet.new, suffixToLanguage_foldl_add, List.foldl_append, Option.or_none]

/-- A mapping whose context rule holds at the node. -/
def CaptureMapping.contextual (text : TextFunctions) (node : SyntaxNode)
    (ancestors : List String) (mapping : CaptureMapping)
    : Bool :=
  mapping.parserNodeTypes.any (· = node.nodeType)
  && (mapping.contextRule ≠ ""
    && contextRuleMatches text mapping.contextRule node ancestors)

/-- A mapping without a context rule that lists the type of the node. -/
def CaptureMapping.plain (node : SyntaxNode) (mapping : CaptureMapping) : Bool :=
  mapping.parserNodeTypes.any (· = node.nodeType) && mapping.contextRule = ""

/-- The mappings that compete for a node: those whose context rule holds, or the plain ones
when there is none.
-/
def eligibleMappings (text : TextFunctions) (node : SyntaxNode) (ancestors : List String)
    (mappings : List CaptureMapping)
    : List CaptureMapping :=
  if mappings.any (·.contextual text node ancestors) then
    mappings.filter (·.contextual text node ancestors)
  else mappings.filter (·.plain node)

theorem mappingForSyntaxNode_eq_head (node : SyntaxNode) (mappings : List CaptureMapping)
    (ancestors : List String)
    : mappingForSyntaxNode text node mappings ancestors
      = (eligibleMappings text node ancestors mappings).head? := by
  have contextual
      : (mappingCandidates node mappings).find? (fun mapping =>
          mapping.contextRule ≠ ""
          && contextRuleMatches text mapping.contextRule node ancestors)
        = (mappings.filter (·.contextual text node ancestors)).head? := by
    rw [List.head?_filter, mappingCandidates, List.find?_filter]
    simp only [CaptureMapping.contextual, Bool.decide_and, Bool.decide_eq_true]
  have plain
      : (mappingCandidates node mappings).find? (fun mapping => mapping.contextRule = "")
        = (mappings.filter (·.plain node)).head? := by
    rw [List.head?_filter, mappingCandidates, List.find?_filter]
    simp only [CaptureMapping.plain, Bool.decide_and, Bool.decide_eq_true]
  rw [mappingForSyntaxNode, eligibleMappings]
  simp only [contextual, plain]
  by_cases some : mappings.any (·.contextual text node ancestors)
  · obtain ⟨mapping, member, holds⟩ := List.any_eq_true.mp some
    have inside : mapping ∈ mappings.filter (·.contextual text node ancestors) :=
      List.mem_filter.mpr ⟨member, holds⟩
    rw [if_pos some]
    cases chosen : mappings.filter (·.contextual text node ancestors) with
    | nil => simp [chosen] at inside
    | cons first rest => rfl
  · have none : mappings.filter (·.contextual text node ancestors) = [] := by
      rw [List.filter_eq_nil_iff]
      intro mapping member holds
      exact some (List.any_eq_true.mpr ⟨mapping, member, holds⟩)
    rw [if_neg some, none]
    rfl

-- What equal payloads say

variable {left right : NativeSyntaxMaterializationRequest}

/-- The relations that the metadata of a graph build carries. -/
def NativeSyntaxMaterializationRequest.ontologyRelations
    (request : NativeSyntaxMaterializationRequest)
    : Option (List OntologyRelationType) :=
  if request.ontologySchema.relationTypes = [] then none
  else some request.ontologySchema.relationTypes

theorem profiles_agree (same : right.graphBuildDigestInput = left.graphBuildDigestInput)
    : AgreeByKey LanguageProfile.language LanguageProfile.sorted left.profiles
        right.profiles := by
  refine (agreeByKey_iff _ LanguageProfile.sorted (fun _ => rfl)).mp ?_
  exact (congrArg GraphBuildDigestInput.profiles same).symm

theorem mappings_agree {profile other : LanguageProfile}
    (same : profile.sorted = other.sorted)
    : AgreeByKey CaptureMapping.captureName CaptureMapping.sorted profile.captureMappings
        other.captureMappings :=
  (agreeByKey_iff _ CaptureMapping.sorted (fun _ => rfl)).mp
    (congrArg LanguageProfile.captureMappings same)

/-- Sorting the suffixes changes nothing for the lookup. -/
theorem declares_eq_of_sorted {profile other : LanguageProfile}
    (same : profile.sorted = other.sorted) (key : String)
    : profile.declares text key = other.declares text key := by
  have suffixes : profile.suffixes.Perm other.suffixes :=
    sortBy_id_eq_iff.mp (congrArg LanguageProfile.suffixes same)
  exact suffixes.any_eq

theorem lists_eq_of_sorted {mapping other : CaptureMapping}
    (same : mapping.sorted = other.sorted) (nodeType : String)
    : mapping.parserNodeTypes.any (· = nodeType) = other.parserNodeTypes.any (· = nodeType) := by
  have types : mapping.parserNodeTypes.Perm other.parserNodeTypes :=
    sortBy_id_eq_iff.mp (congrArg CaptureMapping.parserNodeTypes same)
  exact types.any_eq

theorem contextual_eq_of_sorted {mapping other : CaptureMapping}
    (same : mapping.sorted = other.sorted) (node : SyntaxNode) (ancestors : List String)
    : mapping.contextual text node ancestors = other.contextual text node ancestors := by
  have rule : mapping.sorted.contextRule = other.sorted.contextRule := by rw [same]
  change mapping.contextRule = other.contextRule at rule
  simp only [CaptureMapping.contextual, lists_eq_of_sorted same, rule]

theorem plain_eq_of_sorted {mapping other : CaptureMapping}
    (same : mapping.sorted = other.sorted) (node : SyntaxNode)
    : mapping.plain node = other.plain node := by
  have rule : mapping.sorted.contextRule = other.sorted.contextRule := by rw [same]
  change mapping.contextRule = other.contextRule at rule
  simp only [CaptureMapping.plain, lists_eq_of_sorted same, rule]

/-- Relations that agree up to order allow the same edges. -/
theorem relations_agree (same : right.graphBuildDigestInput = left.graphBuildDigestInput)
    (edgeType source target : String)
    : (RelationAllowlist.fromMeta left.ontologyRelations).allows edgeType source target
      = (RelationAllowlist.fromMeta right.ontologyRelations).allows edgeType source
          target := by
  have agree : AgreeByKey OntologyRelationType.name OntologyRelationType.sorted
      left.ontologySchema.relationTypes right.ontologySchema.relationTypes :=
    (agreeByKey_iff _ OntologyRelationType.sorted (fun _ => rfl)).mp
      (congrArg GraphBuildDigestInput.ontologyRelationTypes same).symm
  have carries {first second : List OntologyRelationType}
      (agree : AgreeByKey OntologyRelationType.name OntologyRelationType.sorted first second)
      (allowed
        : ∃ relation ∈ first,
            relation.name = edgeType
            ∧ edgeType ≠ ""
            ∧ source ∈ relation.sourceTypes
            ∧ target ∈ relation.targetTypes)
      : ∃ relation ∈ second,
          relation.name = edgeType
          ∧ edgeType ≠ ""
          ∧ source ∈ relation.sourceTypes
          ∧ target ∈ relation.targetTypes := by
    obtain ⟨relation, member, name, named, source, target⟩ := allowed
    obtain ⟨other, there, names, sorted⟩ := agree.exists_mem member
    have sources : other.sourceTypes.Perm relation.sourceTypes :=
      sortBy_id_eq_iff.mp (congrArg OntologyRelationType.sourceTypes sorted)
    have targets : other.targetTypes.Perm relation.targetTypes :=
      sortBy_id_eq_iff.mp (congrArg OntologyRelationType.targetTypes sorted)
    exact ⟨other, there, names.trans name, named, sources.mem_iff.mpr source,
      targets.mem_iff.mpr target⟩
  have both (first second : List OntologyRelationType)
      (agree : AgreeByKey OntologyRelationType.name OntologyRelationType.sorted first second)
      (empty : first = [])
      : second = [] := by
    cases second with
    | nil => rfl
    | cons relation rest =>
        obtain ⟨other, there, -⟩ := agree.symm.exists_mem (List.mem_cons_self ..)
        simp [empty] at there
  rw [Bool.eq_iff_iff]
  by_cases none : left.ontologySchema.relationTypes = []
  · have also := both _ _ agree none
    simp [NativeSyntaxMaterializationRequest.ontologyRelations, none, also]
  · have also : right.ontologySchema.relationTypes ≠ [] :=
      fun empty => none (both _ _ agree.symm empty)
    simp only [NativeSyntaxMaterializationRequest.ontologyRelations, none, also, if_false,
      RelationAllowlist.allows_fromMeta_some]
    exact ⟨carries agree, carries agree.symm⟩

/-- Equal payloads give the same profile for a language, up to the order of its lists. -/
theorem profileForLanguage_agree (text : TextFunctions)
    (same : right.graphBuildDigestInput = left.graphBuildDigestInput) (language : String)
    : ((ProfileSet.new text left.profiles).profileForLanguage language).map
        LanguageProfile.sorted
      = ((ProfileSet.new text right.profiles).profileForLanguage language).map
          LanguageProfile.sorted := by
  have agree := profiles_agree same language
  have last := congrArg List.getLast? agree
  simp only [List.getLast?_map] at last
  rw [profileForLanguage_new, profileForLanguage_new]
  simp only [Option.map_or, last]

-----------------------------------------------------------------------------------------
-- The condition under which equal payloads are enough
-----------------------------------------------------------------------------------------

/-- Two requests under which every file and every tree is built alike; profiles and mappings
are compared up to the order of their lists.
-/
structure BuildsAlike (text : TextFunctions) (left right : NativeSyntaxMaterializationRequest)
    : Prop where
  language
    : ∀ path,
        (ProfileSet.new text left.profiles).languageForPath text path
        = (ProfileSet.new text right.profiles).languageForPath text path
  profile
    : ∀ language,
        ((ProfileSet.new text left.profiles).profileForLanguage language).map
          LanguageProfile.sorted
        = ((ProfileSet.new text right.profiles).profileForLanguage language).map
            LanguageProfile.sorted
  captures
    : ∀ language profile other,
        (ProfileSet.new text left.profiles).profileForLanguage language = some profile
        → (ProfileSet.new text right.profiles).profileForLanguage language = some other
        → ∀ node ancestors,
            (mappingForSyntaxNode text node profile.captureMappings ancestors).map
              CaptureMapping.sorted
            = (mappingForSyntaxNode text node other.captureMappings ancestors).map
                CaptureMapping.sorted
            ∧ markCaptures text profile ancestors node
              = markCaptures text other ancestors node
  relations
    : ∀ edgeType source target,
        (RelationAllowlist.fromMeta left.ontologyRelations).allows edgeType source target
        = (RelationAllowlist.fromMeta right.ontologyRelations).allows edgeType source target

/-- A request whose meaning does not rest on an order that its digest forgets: no path is
claimed by two of its languages, and no node by two capture names of one of its profiles.
-/
structure Unambiguous (text : TextFunctions) (request : NativeSyntaxMaterializationRequest)
    : Prop where
  suffixes
    : ∀ path key,
        pathSuffix text path = some key
        → ∀ profile ∈ request.profiles,
            ∀ other ∈ request.profiles,
              profile.declares text key = true
              → other.declares text key = true
              → profile.language = other.language
  captures
    : ∀ language profile,
        (request.profiles.filter (·.language = language)).getLast? = some profile
        → ∀ node ancestors,
            ∀ first ∈ eligibleMappings text node ancestors profile.captureMappings,
              ∀ second ∈ eligibleMappings text node ancestors profile.captureMappings,
                first.captureName = second.captureName

theorem languageForPath_agree (agree
      : AgreeByKey LanguageProfile.language LanguageProfile.sorted left.profiles
          right.profiles)
    (unambiguous : Unambiguous text left) (path : String)
    : (ProfileSet.new text left.profiles).languageForPath text path
      = (ProfileSet.new text right.profiles).languageForPath text path := by
  cases found : pathSuffix text path with
  | none => simp [ProfileSet.languageForPath, found]
  | some key =>
      have chosen := agree.filter_eq (·.declares text key)
        (fun first second same => declares_eq_of_sorted same key)
        (fun first inside second there => unambiguous.suffixes path key found first inside
          second there)
      have last := congrArg (fun list => list.getLast?.map LanguageProfile.language) chosen
      simp only [List.getLast?_map, Option.map_map] at last
      simp only [ProfileSet.languageForPath, found, Option.bind_some, suffixToLanguage_new]
      exact congrArg (Option.or · _) last

/-- Where one capture name competes for each node, the order of the others does not matter. -/
theorem eligibleMappings_agree {mappings others : List CaptureMapping} {node : SyntaxNode}
    {ancestors : List String}
    (agree : AgreeByKey CaptureMapping.captureName CaptureMapping.sorted mappings others)
    (single
      : ∀ first ∈ eligibleMappings text node ancestors mappings,
          ∀ second ∈ eligibleMappings text node ancestors mappings,
            first.captureName = second.captureName)
    : (eligibleMappings text node ancestors mappings).map CaptureMapping.sorted
      = (eligibleMappings text node ancestors others).map CaptureMapping.sorted := by
  have transfers {first second : List CaptureMapping}
      (agree : AgreeByKey CaptureMapping.captureName CaptureMapping.sorted first second)
      (some : first.any (·.contextual text node ancestors) = true)
      : second.any (·.contextual text node ancestors) = true := by
    obtain ⟨mapping, member, holds⟩ := List.any_eq_true.mp some
    obtain ⟨other, there, -, same⟩ := agree.exists_mem member
    refine List.any_eq_true.mpr ⟨other, there, ?_⟩
    rw [contextual_eq_of_sorted same]
    exact holds
  by_cases some : mappings.any (·.contextual text node ancestors)
  · simp only [eligibleMappings, some, transfers agree some, if_true] at single ⊢
    refine agree.filter_eq _ (fun first second same => contextual_eq_of_sorted same node
      ancestors) ?_
    exact fun first inside second there one two =>
      single first (List.mem_filter.mpr ⟨inside, one⟩) second
        (List.mem_filter.mpr ⟨there, two⟩)
  · have also : ¬ others.any (·.contextual text node ancestors) :=
      fun holds => some (transfers agree.symm holds)
    simp only [eligibleMappings, some, also, Bool.false_eq_true, if_false] at single ⊢
    refine agree.filter_eq _ (fun first second same => plain_eq_of_sorted same node) ?_
    exact fun first inside second there one two =>
      single first (List.mem_filter.mpr ⟨inside, one⟩) second
        (List.mem_filter.mpr ⟨there, two⟩)

mutual

/-- Trees are marked alike when every node finds the same capture name. -/
theorem markCaptures_agree {profile other : LanguageProfile}
    (same
      : ∀ node ancestors,
          (mappingForSyntaxNode text node profile.captureMappings ancestors).map
            CaptureMapping.captureName
          = (mappingForSyntaxNode text node other.captureMappings ancestors).map
              CaptureMapping.captureName)
    (ancestors : List String)
    : ∀ node, markCaptures text profile ancestors node = markCaptures text other ancestors node
  | ⟨nodeType, body, lineStart, lineEnd, byteStart, byteEnd, captureName, fieldName, children,
      fields⟩ => by
      simp only [markCaptures, markChildren_agree same (ancestors ++ [nodeType]) children]
      generalize markChildren text other (ancestors ++ [nodeType]) children = marked
      have names := same ⟨nodeType, body, lineStart, lineEnd, byteStart, byteEnd, captureName,
        fieldName, marked, fields⟩ ancestors
      revert names
      cases mappingForSyntaxNode text ⟨nodeType, body, lineStart, lineEnd, byteStart, byteEnd,
          captureName, fieldName, marked, fields⟩ profile.captureMappings ancestors <;>
        cases mappingForSyntaxNode text ⟨nodeType, body, lineStart, lineEnd, byteStart,
          byteEnd, captureName, fieldName, marked, fields⟩ other.captureMappings ancestors <;>
        simp

theorem markChildren_agree {profile other : LanguageProfile}
    (same
      : ∀ node ancestors,
          (mappingForSyntaxNode text node profile.captureMappings ancestors).map
            CaptureMapping.captureName
          = (mappingForSyntaxNode text node other.captureMappings ancestors).map
              CaptureMapping.captureName)
    (ancestors : List String)
    : ∀ children,
        markChildren text profile ancestors children
        = markChildren text other ancestors children
  | [] => rfl
  | child :: rest => by
      simp only [markChildren, markCaptures_agree same ancestors child,
        markChildren_agree same ancestors rest]

end

/-- The condition is enough. -/
theorem Unambiguous.buildsAlike (unambiguous : Unambiguous text left)
    (same : right.graphBuildDigestInput = left.graphBuildDigestInput)
    : BuildsAlike text left right := by
  have agree := profiles_agree same
  refine ⟨languageForPath_agree agree unambiguous, profileForLanguage_agree text same, ?_,
    relations_agree same⟩
  intro language profile other found there
  have chosen (node : SyntaxNode) (ancestors : List String)
      : (mappingForSyntaxNode text node profile.captureMappings ancestors).map
          CaptureMapping.sorted
        = (mappingForSyntaxNode text node other.captureMappings ancestors).map
            CaptureMapping.sorted := by
    have sorted := profileForLanguage_agree text same language
    rw [found, there, Option.map_some, Option.map_some, Option.some.injEq] at sorted
    rw [profileForLanguage_new] at found there
    cases last : (left.profiles.filter (·.language = language)).getLast? with
    | some requested =>
        obtain rfl : requested = profile := by simpa [last] using found
        have heads := congrArg List.head? (eligibleMappings_agree (mappings_agree sorted)
          (unambiguous.captures language requested last node ancestors))
        rw [List.head?_map, List.head?_map] at heads
        rwa [mappingForSyntaxNode_eq_head, mappingForSyntaxNode_eq_head]
    | none =>
        -- A built-in profile is the same under both requests.
        have also : (right.profiles.filter (·.language = language)).getLast? = none := by
          have lists := congrArg List.getLast? (agree language)
          simpa [List.getLast?_map, last] using lists.symm
        rw [last, Option.none_or] at found
        rw [also, Option.none_or, found, Option.some.injEq] at there
        rw [there]
  intro node ancestors
  refine ⟨chosen node ancestors, markCaptures_agree ?_ ancestors node⟩
  intro node ancestors
  have names := congrArg (Option.map CaptureMapping.captureName) (chosen node ancestors)
  simp only [Option.map_map] at names
  exact names

-----------------------------------------------------------------------------------------
-- The condition is needed
-----------------------------------------------------------------------------------------

/-- The request with the profiles of one language moved to the end. -/
def NativeSyntaxMaterializationRequest.languageLast
    (request : NativeSyntaxMaterializationRequest) (language : String)
    : NativeSyntaxMaterializationRequest :=
  {
    request with
    profiles :=
      request.profiles.filter (fun profile => decide (profile.language ≠ language))
      ++ request.profiles.filter (fun profile => !decide (profile.language ≠ language))
  }

theorem languageLast_payload (request : NativeSyntaxMaterializationRequest)
    (language : String)
    : (request.languageLast language).graphBuildDigestInput
      = request.graphBuildDigestInput := by
  have sorted := sortBy_split LanguageProfile.language (fun other => decide (other ≠ language))
    request.profiles
  simp only [NativeSyntaxMaterializationRequest.graphBuildDigestInput,
    NativeSyntaxMaterializationRequest.languageLast, sorted]
  rfl

/-- The language moved to the end wins each of its suffixes. -/
theorem languageLast_languageForPath {request : NativeSyntaxMaterializationRequest}
    {profile : LanguageProfile} {path key : String} (member : profile ∈ request.profiles)
    (found : pathSuffix text path = some key)
    (declared : profile.declares text key = true)
    : (ProfileSet.new text (request.languageLast profile.language).profiles).languageForPath
        text path
      = some profile.language := by
  have inside
      : profile
        ∈ (request.profiles.filter
            (fun other => !decide (other.language ≠ profile.language))).filter
          (·.declares text key) := by
    simp [member, declared]
  obtain ⟨last, chosen⟩ : ∃ last,
      ((request.profiles.filter
        (fun other => !decide (other.language ≠ profile.language))).filter
          (·.declares text key)).getLast? = some last :=
    Option.isSome_iff_exists.mp
      (by rw [List.getLast?_isSome]; exact List.ne_nil_of_mem inside)
  have language : last.language = profile.language := by
    have there := List.mem_of_getLast? chosen
    simpa using (List.mem_filter.mp (List.mem_filter.mp there).1).2
  simp only [ProfileSet.languageForPath, found, Option.bind_some, suffixToLanguage_new,
    NativeSyntaxMaterializationRequest.languageLast, List.filter_append, List.getLast?_append,
    chosen, Option.some_or, Option.map_some, language]

/-- The mappings with those of one capture name moved to the front. -/
def captureFirst (captureName : String) (mappings : List CaptureMapping)
    : List CaptureMapping :=
  mappings.filter (fun mapping => decide (mapping.captureName = captureName))
  ++ mappings.filter (fun mapping => !decide (mapping.captureName = captureName))

def LanguageProfile.captureFirst (captureName : String) (profile : LanguageProfile)
    : LanguageProfile :=
  { profile with captureMappings := Protocol.captureFirst captureName profile.captureMappings }

def NativeSyntaxMaterializationRequest.captureFirst
    (request : NativeSyntaxMaterializationRequest) (captureName : String)
    : NativeSyntaxMaterializationRequest :=
  { request with profiles := request.profiles.map (LanguageProfile.captureFirst captureName) }

theorem sorted_captureFirst (captureName : String) (profile : LanguageProfile)
    : (profile.captureFirst captureName).sorted = profile.sorted := by
  have sorted := sortBy_split CaptureMapping.captureName
    (fun other => decide (other = captureName)) profile.captureMappings
  simp only [LanguageProfile.sorted, LanguageProfile.captureFirst, Protocol.captureFirst,
    sorted]

theorem captureFirst_payload (request : NativeSyntaxMaterializationRequest)
    (captureName : String)
    : (request.captureFirst captureName).graphBuildDigestInput
      = request.graphBuildDigestInput := by
  have profiles
      : (sortBy LanguageProfile.language
          (request.profiles.map (LanguageProfile.captureFirst captureName))).map
            LanguageProfile.sorted
        = (sortBy LanguageProfile.language request.profiles).map LanguageProfile.sorted := by
    have moved
        : sortBy LanguageProfile.language
            (request.profiles.map (LanguageProfile.captureFirst captureName))
          = (sortBy LanguageProfile.language request.profiles).map
              (LanguageProfile.captureFirst captureName) :=
      (map_sortBy (fun _ => rfl) _).symm
    rw [moved, List.map_map]
    congr 1
    funext profile
    exact sorted_captureFirst captureName profile
  simp only [NativeSyntaxMaterializationRequest.graphBuildDigestInput,
    NativeSyntaxMaterializationRequest.captureFirst, profiles]
  rfl

/-- A name moved to the front wins each node that it competes for. -/
theorem captureFirst_head {mappings : List CaptureMapping} {mapping : CaptureMapping}
    {node : SyntaxNode} {ancestors : List String}
    (eligible : mapping ∈ eligibleMappings text node ancestors mappings)
    : (mappingForSyntaxNode text node (captureFirst mapping.captureName mappings)
        ancestors).map CaptureMapping.captureName
      = some mapping.captureName := by
  have wins {test : CaptureMapping → Bool} (member : mapping ∈ mappings.filter test)
      : (((captureFirst mapping.captureName mappings).filter test).head?).map
          CaptureMapping.captureName
        = some mapping.captureName := by
    obtain ⟨inside, chosen⟩ := List.mem_filter.mp member
    have front
        : mapping
          ∈ (mappings.filter
              (fun other => decide (other.captureName = mapping.captureName))).filter test := by
      simp [inside, chosen]
    obtain ⟨first, head⟩ : ∃ first,
        ((mappings.filter
          (fun other => decide (other.captureName = mapping.captureName))).filter test).head?
        = some first :=
      Option.isSome_iff_exists.mp
        (by rw [List.isSome_head?]; exact List.ne_nil_of_mem front)
    have name : first.captureName = mapping.captureName := by
      have there := List.mem_of_head? head
      simpa using (List.mem_filter.mp (List.mem_filter.mp there).1).2
    rw [captureFirst, List.filter_append, List.head?_append, head, Option.some_or,
      Option.map_some, name]
  have anywhere
      : (captureFirst mapping.captureName mappings).any (·.contextual text node ancestors)
        = mappings.any (·.contextual text node ancestors) := by
    have perm : (captureFirst mapping.captureName mappings).Perm mappings :=
      List.filter_append_perm _ _
    exact perm.any_eq
  rw [mappingForSyntaxNode_eq_head, eligibleMappings, anywhere]
  rw [eligibleMappings] at eligible
  split
  · next some => exact wins (by simpa only [some, if_true] using eligible)
  · next none => exact wins (by simpa only [none, Bool.false_eq_true, if_false] using eligible)

/-- Equal digest payloads are enough for a request exactly when it is unambiguous: then every
request with the same payload builds every file alike, and otherwise some request with the
same payload does not.
-/
theorem compatibilityDigest_sound_iff (text : TextFunctions)
    (left : NativeSyntaxMaterializationRequest)
    : (∀ right : NativeSyntaxMaterializationRequest,
        right.graphBuildDigestInput = left.graphBuildDigestInput
        → BuildsAlike text left right)
      ↔ Unambiguous text left := by
  constructor
  · intro sound
    constructor
    · intro path key found profile inside other there declares alsoDeclares
      have first := (sound _ (languageLast_payload left profile.language)).language path
      have second := (sound _ (languageLast_payload left other.language)).language path
      rw [languageLast_languageForPath inside found declares] at first
      rw [languageLast_languageForPath there found alsoDeclares] at second
      exact Option.some.inj (first.symm.trans second)
    · intro language profile last node ancestors first eligible second also
      have known
          : (ProfileSet.new text left.profiles).profileForLanguage language = some profile := by
        rw [profileForLanguage_new, last, Option.some_or]
      have names (mapping : CaptureMapping)
          (eligible
            : mapping ∈ eligibleMappings text node ancestors profile.captureMappings)
          : (mappingForSyntaxNode text node profile.captureMappings ancestors).map
              CaptureMapping.captureName
            = some mapping.captureName := by
        have reordered
            : (ProfileSet.new text
                (left.captureFirst mapping.captureName).profiles).profileForLanguage language
              = some (profile.captureFirst mapping.captureName) := by
          rw [profileForLanguage_new, NativeSyntaxMaterializationRequest.captureFirst,
            List.filter_map, List.getLast?_map]
          have same : ((fun profile : LanguageProfile => decide (profile.language = language))
              ∘ LanguageProfile.captureFirst mapping.captureName)
              = fun profile => decide (profile.language = language) := rfl
          rw [same, last, Option.map_some, Option.some_or]
        have alike := ((sound _ (captureFirst_payload left mapping.captureName)).captures
          language profile _ known reordered node ancestors).1
        have carried := congrArg (Option.map CaptureMapping.captureName) alike
        simp only [Option.map_map] at carried
        exact carried.trans (captureFirst_head eligible)
      exact Option.some.inj ((names first eligible).symm.trans (names second also))
  · intro unambiguous right same
    exact unambiguous.buildsAlike same

def functionMapping : CaptureMapping := mapping "definition.function" ["function_item"] "Function"

def methodMapping : CaptureMapping := mapping "definition.method" ["function_item"] "Method"

def rustProfile (captureMappings : List CaptureMapping) : LanguageProfile where
  language := "rust"
  suffixes := [".rs"]
  grammarPackage := "tree_sitter_rust"
  grammarVersion := "tree_sitter_rust@0.24.2"
  rootNodeTypes := ["source_file"]
  captureMappings := captureMappings

def rustRequest (captureMappings : List CaptureMapping) : NativeSyntaxMaterializationRequest where
  sourceRoot := "/repository"
  repositoryLabel := "repository"
  parserVersion := "1"
  manifestSchemaVersion := 1
  ontology := "ontology"
  profiles := [rustProfile captureMappings]
  excludedParts := []
  includeFts := false

/-- Two mappings that claim one node type in either order: one payload, and two names for the
same node.
-/
theorem compatibilityDigest_forgets_mapping_order
    : (rustRequest [methodMapping, functionMapping]).graphBuildDigestInput
        = (rustRequest [functionMapping, methodMapping]).graphBuildDigestInput
      ∧ (ProfileSet.new asciiText
          (rustRequest [functionMapping, methodMapping]).profiles).profileForLanguage "rust"
        = some (rustProfile [functionMapping, methodMapping])
      ∧ (ProfileSet.new asciiText
          (rustRequest [methodMapping, functionMapping]).profiles).profileForLanguage "rust"
        = some (rustProfile [methodMapping, functionMapping])
      ∧ (markCaptures asciiText (rustProfile [functionMapping, methodMapping]) []
          { nodeType := "function_item" }).captureName
        = "definition.function"
      ∧ (markCaptures asciiText (rustProfile [methodMapping, functionMapping]) []
          { nodeType := "function_item" }).captureName
        = "definition.method"
      ∧ ¬ BuildsAlike asciiText (rustRequest [functionMapping, methodMapping])
          (rustRequest [methodMapping, functionMapping]) := by
  have first
      : (ProfileSet.new asciiText
          (rustRequest [functionMapping, methodMapping]).profiles).profileForLanguage "rust"
        = some (rustProfile [functionMapping, methodMapping]) := by
    rw [profileForLanguage_new]
    rfl
  have second
      : (ProfileSet.new asciiText
          (rustRequest [methodMapping, functionMapping]).profiles).profileForLanguage "rust"
        = some (rustProfile [methodMapping, functionMapping]) := by
    rw [profileForLanguage_new]
    rfl
  have function
      : (markCaptures asciiText (rustProfile [functionMapping, methodMapping]) []
          { nodeType := "function_item" }).captureName
        = "definition.function" := by
    rfl
  have method
      : (markCaptures asciiText (rustProfile [methodMapping, functionMapping]) []
          { nodeType := "function_item" }).captureName
        = "definition.method" := by
    rfl
  refine ⟨captureFirst_payload (rustRequest [functionMapping, methodMapping])
    "definition.method", first, second, function, method, ?_⟩
  intro alike
  have same := (alike.captures "rust" _ _ first second { nodeType := "function_item" } []).2
  rw [same, method] at function
  exact absurd function (by decide)

end CodebaseGraph.Protocol
