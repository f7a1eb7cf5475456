import MarketingAgents.Library.UrlEncoded
import MarketingAgents.Web.HierarchyLayout
import Mathlib.Data.List.Chain
import Mathlib.Data.List.DropRight

namespace MarketingAgents

/-! # The filters of the organisation chart in the address

Texts of the browser are sequences of UTF-16 code units; what the search
parameters hand out is free of lone surrogates and kept as a `String`. The
compatibility normalisation and the percent-coding of the search parameters are
the browser's.
-/

/-- The code units of a text. -/
def utf16 (text : String) : List UInt16 :=
  text.toList.flatMap fun character =>
    let code := character.toNat
    if code < 0x10000 then [code.toUInt16]
    else [(0xD800 + (code - 0x10000) / 0x400).toUInt16,
      (0xDC00 + (code - 0x10000) % 0x400).toUInt16]

def questionMark : UInt16 := 0x3F

/-- What the browser contributes. -/
structure UrlCoding where
  nfkc : String → String
  readParams : List UInt16 → List (String × String)
  writeParams : List (String × String) → String

def MAX_QUERY_LENGTH : Nat := 2048

def MAX_RAW_SEARCH_LENGTH : Nat := 256

inductive DeploymentFilter where
  | enabled | disabled
deriving DecidableEq

def DeploymentFilter.value : DeploymentFilter → String
  | .enabled => "enabled"
  | .disabled => "disabled"

inductive RecentRunState where
  | neverRun | received | validated | planned | awaitingApproval | executing | completed | failed |
      rejected | cancelled
deriving DecidableEq

def RecentRunState.value : RecentRunState → String
  | .neverRun => "never_run"
  | .received => "received"
  | .validated => "validated"
  | .planned => "planned"
  | .awaitingApproval => "awaiting_approval"
  | .executing => "executing"
  | .completed => "completed"
  | .failed => "failed"
  | .rejected => "rejected"
  | .cancelled => "cancelled"

def DEPLOYMENTS : List DeploymentFilter := [.enabled, .disabled]

def RUN_STATES : List RecentRunState :=
  [.neverRun, .received, .validated, .planned, .awaitingApproval, .executing, .completed, .failed,
    .rejected, .cancelled]

structure OrgChartFilters where
  q : String
  departmentId : Option String
  functionId : Option String
  deployment : Option DeploymentFilter
  runState : Option RecentRunState
  capabilityId : Option String
deriving DecidableEq

def DEFAULT_ORG_CHART_FILTERS : OrgChartFilters := ⟨"", none, none, none, none, none⟩

/-- The characters of the property `White_Space`. -/
def isWhiteSpace (character : Char) : Bool :=
  let code := character.toNat
  9 ≤ code && code ≤ 13 || code = 0x20 || code = 0x85 || code = 0xA0 || code = 0x1680 ||
    0x2000 ≤ code && code ≤ 0x200A || code = 0x2028 || code = 0x2029 || code = 0x202F ||
      code = 0x205F || code = 0x3000

/-- What `trim` removes: the byte order mark too, but not the next line U+0085. -/
def isTrimmed (character : Char) : Bool :=
  let code := character.toNat
  isWhiteSpace character && code ≠ 0x85 || code = 0xFEFF

def trim (text : List Char) : List Char := (text.dropWhile isTrimmed).rdropWhile isTrimmed

/-- Replace every run of white space by one space. -/
def replaceWhiteSpace : (inRun : Bool) → List Char → List Char
  | _, [] => []
  | inRun, character :: rest =>
      if isWhiteSpace character then
        if inRun then replaceWhiteSpace true rest else ' ' :: replaceWhiteSpace true rest
      else character :: replaceWhiteSpace false rest

def cleanSearchQuery (coding : UrlCoding) (value : String) : String :=
  String.ofList (replaceWhiteSpace false (trim (coding.nfkc value).toList))

def singleValue (params : List (String × String)) (key : String) : Option String :=
  match params.filter fun param => param.1 = key with
  | [param] => some param.2
  | _ => none

def departmentIds (hierarchy : List AgentDepartment) : List String := hierarchy.map (·.id)

/-- The department of the last function under an identifier. -/
def functionOwner (hierarchy : List AgentDepartment) (functionId : String) : Option String :=
  let owners := hierarchy.flatMap fun department =>
    department.functions.map fun agentFunction => (agentFunction.id, department.id)
  (owners.reverse.find? fun owner => owner.1 = functionId).map (·.2)

def capabilityIds (hierarchy : List AgentDepartment) : List String :=
  hierarchy.flatMap fun department => department.functions.flatMap fun agentFunction =>
    agentFunction.instances.flatMap fun agentInstance =>
      agentInstance.capabilitySummaries.map (·.id)

def queryOfParam (coding : UrlCoding) : Option String → String
  | some rawQ =>
    if (utf16 rawQ).length ≤ MAX_RAW_SEARCH_LENGTH then cleanSearchQuery coding rawQ else ""
  | none => ""

/-- The filters of parameters that were read. -/
def filtersOfParams (coding : UrlCoding) (params : List (String × String))
    (hierarchy : List AgentDepartment) :
    OrgChartFilters :=
  let departmentId := (singleValue params "department").filter (· ∈ departmentIds hierarchy)
  { q := queryOfParam coding (singleValue params "q")
    departmentId
    functionId := (singleValue params "function").filter fun rawFunction =>
      departmentId.isSome && functionOwner hierarchy rawFunction = departmentId
    deployment := (singleValue params "deployment").bind fun raw =>
      DEPLOYMENTS.find? (·.value = raw)
    runState := (singleValue params "run").bind fun raw => RUN_STATES.find? (·.value = raw)
    capabilityId := (singleValue params "capability").filter (· ∈ capabilityIds hierarchy) }

def parseOrgChartFilters (coding : UrlCoding) (search : List UInt16)
    (hierarchy : List AgentDepartment) :
    OrgChartFilters :=
  if search.length > MAX_QUERY_LENGTH then DEFAULT_ORG_CHART_FILTERS
  else
    let query := if search.head? = some questionMark then search.tail else search
    filtersOfParams coding (coding.readParams query) hierarchy

def writtenQuery (coding : UrlCoding) (filters : OrgChartFilters) : Option String :=
  let q := cleanSearchQuery coding filters.q
  if q ≠ "" ∧ (utf16 q).length ≤ MAX_RAW_SEARCH_LENGTH then some q else none

/-- The supported parameters in their fixed order. -/
def writtenFields (coding : UrlCoding) (filters : OrgChartFilters) :
    List (String × Option String) :=
  [("q", writtenQuery coding filters), ("department", filters.departmentId),
    ("function", filters.functionId),
    ("deployment", filters.deployment.map (·.value)), ("run", filters.runState.map (·.value)),
    ("capability", filters.capabilityId)]

def presentFields (fields : List (String × Option String)) : List (String × String) :=
  fields.filterMap fun field => field.2.map fun value => (field.1, value)

def serializeOrgChartFilters (coding : UrlCoding) (filters : OrgChartFilters) : String :=
  let value := coding.writeParams (presentFields (writtenFields coding filters))
  if value = "" then "" else "?" ++ value

/-- What is documented of the browser: the search parameters lose nothing, and the normal form is
closed under a second normalisation, under substrings and under writing white space as spaces. -/
structure UrlCoding.Lawful (coding : UrlCoding) : Prop where
  lossless : ∀ params, coding.readParams (utf16 (coding.writeParams params)) = params
  empty : coding.writeParams [] = ""
  idempotent : ∀ text, coding.nfkc (coding.nfkc text) = coding.nfkc text
  substring : ∀ before text after, coding.nfkc (before ++ text ++ after) = before ++ text ++ after →
    coding.nfkc text = text
  spaced : ∀ text, coding.nfkc text = text →
    coding.nfkc (String.ofList (replaceWhiteSpace false text.toList)) =
    String.ofList (replaceWhiteSpace false text.toList)

/-- The filters as parameters, without another cleaning. -/
def OrgChartFilters.params (filters : OrgChartFilters) : List (String × String) :=
  presentFields [("q", if filters.q = "" then none else some filters.q),
    ("department", filters.departmentId),
    ("function", filters.functionId), ("deployment", filters.deployment.map (·.value)),
    ("run", filters.runState.map (·.value)), ("capability", filters.capabilityId)]

/-- The query is left alone by another cleaning, and the limits still hold behind the expansions. -/
structure OrgChartFilters.Reloads (coding : UrlCoding) (filters : OrgChartFilters) : Prop where
  settled : cleanSearchQuery coding filters.q = filters.q
  short : (utf16 filters.q).length ≤ MAX_RAW_SEARCH_LENGTH
  fits : (utf16 (coding.writeParams filters.params)).length < MAX_QUERY_LENGTH

/-- What parsing guarantees of the filters other than the query. -/
structure OrgChartFilters.Known (filters : OrgChartFilters)
    (hierarchy : List AgentDepartment) : Prop where
  department : ∀ id ∈ filters.departmentId, id ∈ departmentIds hierarchy
  function : ∀ id ∈ filters.functionId, filters.departmentId.isSome ∧
    functionOwner hierarchy id = filters.departmentId
  capability : ∀ id ∈ filters.capabilityId, id ∈ capabilityIds hierarchy

theorem parse_known (coding : UrlCoding) (search : List UInt16) (hierarchy : List AgentDepartment) :
    (parseOrgChartFilters coding search hierarchy).Known hierarchy := by
  unfold parseOrgChartFilters
  split
  · exact ⟨by simp [DEFAULT_ORG_CHART_FILTERS], by simp [DEFAULT_ORG_CHART_FILTERS],
      by simp [DEFAULT_ORG_CHART_FILTERS]⟩
  · constructor
    · intro id member
      simpa using (Option.mem_filter_iff.mp member).2
    · intro id member
      simpa [filtersOfParams] using (Option.mem_filter_iff.mp member).2
    · intro id member
      simpa using (Option.mem_filter_iff.mp member).2

theorem singleValue_absent {fields : List (String × Option String)} {key : String}
    (absent : key ∉ fields.map (·.1)) :
    (presentFields fields).filter (fun param => param.1 = key) = [] := by
  induction fields with
  | nil => rfl
  | cons field rest ih =>
      obtain ⟨name, value⟩ := field
      simp only [List.map_cons, List.mem_cons, not_or] at absent
      have later := ih absent.2
      cases value with
      | none => exact later
      | some value =>
          rw [show presentFields ((name, some value) :: rest) =
            (name, value) :: presentFields rest from rfl,
            List.filter_cons_of_neg (by simpa using fun same : name = key => absent.1 same.symm),
              later]

theorem singleValue_present {fields : List (String × Option String)}
    (distinct : (fields.map (·.1)).Nodup) :
    ∀ field ∈ fields, singleValue (presentFields fields) field.1 = field.2 := by
  induction fields with
  | nil => simp
  | cons head rest ih =>
      obtain ⟨name, value⟩ := head
      obtain ⟨fresh, distinct⟩ := List.nodup_cons.mp distinct
      intro field member
      rcases List.mem_cons.mp member with rfl | member
      · have absent := singleValue_absent fresh
        cases value with
        | none =>
            rw [singleValue, show presentFields ((name, none) :: rest) = presentFields rest
              from rfl, absent]
        | some value =>
            rw [singleValue, show presentFields ((name, some value) :: rest) =
              (name, value) :: presentFields rest from rfl,
              List.filter_cons_of_pos (by simp), absent]
      · have other : field.1 ≠ name := fun same => fresh (by
          rw [← same]
          exact List.mem_map.mpr ⟨field, member, rfl⟩)
        rw [← ih distinct field member, singleValue, singleValue]
        cases value with
        | none => rfl
        | some value =>
            rw [show presentFields ((name, some value) :: rest) =
              (name, value) :: presentFields rest from rfl,
              List.filter_cons_of_neg (by simpa using fun same : name = field.1 => other same.symm)]

section Reloading

variable {coding : UrlCoding} {filters : OrgChartFilters} {hierarchy : List AgentDepartment}

theorem deployment_found (deployment : Option DeploymentFilter) :
    ((deployment.map (·.value)).bind fun raw => DEPLOYMENTS.find? (·.value = raw)) =
      deployment := by
  cases deployment with
  | none => rfl
  | some deployment => cases deployment <;> decide

theorem runState_found (runState : Option RecentRunState) :
    ((runState.map (·.value)).bind fun raw => RUN_STATES.find? (·.value = raw)) = runState := by
  cases runState with
  | none => rfl
  | some runState => cases runState <;> decide

theorem filter_eq_self {α : Type} {value : Option α} {keeps : α → Bool}
    (kept : ∀ item ∈ value, keeps item = true) :
    value.filter keeps = value := by
  cases value with
  | none => rfl
  | some item => rw [Option.filter_some, if_pos (kept item rfl)]

theorem queryOfParam_written (coding : UrlCoding) (filters : OrgChartFilters) :
    queryOfParam coding (writtenQuery coding filters) =
      ((writtenQuery coding filters).map (cleanSearchQuery coding)).getD "" := by
  unfold writtenQuery
  dsimp only
  split
  · next accepted => rw [queryOfParam, if_pos accepted.2, Option.map_some, Option.getD_some]
  · rfl

theorem filters_reread (known : filters.Known hierarchy) :
    filtersOfParams coding (presentFields (writtenFields coding filters)) hierarchy =
      { filters with
        q := ((writtenQuery coding filters).map (cleanSearchQuery coding)).getD "" } := by
  have distinct : ((writtenFields coding filters).map (·.1)).Nodup := by simp [writtenFields]
  have read := singleValue_present distinct
  have readQ := read ("q", writtenQuery coding filters) (by simp [writtenFields])
  have readDepartment := read ("department", filters.departmentId) (by simp [writtenFields])
  have readFunction := read ("function", filters.functionId) (by simp [writtenFields])
  have readDeployment := read ("deployment", filters.deployment.map (·.value))
    (by simp [writtenFields])
  have readRun := read ("run", filters.runState.map (·.value)) (by simp [writtenFields])
  have readCapability := read ("capability", filters.capabilityId) (by simp [writtenFields])
  have department : filters.departmentId.filter (· ∈ departmentIds hierarchy) =
    filters.departmentId :=
    filter_eq_self fun id member => decide_eq_true (known.department id member)
  have function : (filters.functionId.filter fun id => filters.departmentId.isSome &&
      functionOwner hierarchy id = filters.departmentId) = filters.functionId := by
    apply filter_eq_self
    intro id member
    obtain ⟨present, owner⟩ := known.function id member
    rw [present, owner, decide_eq_true rfl, Bool.and_true]
  have capability : filters.capabilityId.filter (· ∈ capabilityIds hierarchy) =
    filters.capabilityId :=
    filter_eq_self fun id member => decide_eq_true (known.capability id member)
  dsimp only at readQ readDepartment readFunction readDeployment readRun readCapability
  rw [filtersOfParams, readQ, readDepartment, readFunction, readDeployment, readRun,
    readCapability, department,
    function, capability, deployment_found, runState_found, queryOfParam_written]

@[simp]
theorem utf16_empty : utf16 "" = [] := by simp [utf16]

theorem utf16_question (text : String) : utf16 ("?" ++ text) = questionMark :: utf16 text := by
  simp only [utf16, String.toList_append, List.flatMap_append]
  rfl

theorem parse_serialize (lawful : coding.Lawful) (known : filters.Known hierarchy) :
    parseOrgChartFilters coding (utf16 (serializeOrgChartFilters coding filters)) hierarchy =
      if (utf16 (serializeOrgChartFilters coding filters)).length > MAX_QUERY_LENGTH then
        DEFAULT_ORG_CHART_FILTERS
      else { filters with
        q := ((writtenQuery coding filters).map (cleanSearchQuery coding)).getD "" } := by
  unfold parseOrgChartFilters
  split
  · rfl
  · rw [← filters_reread known, ← lawful.lossless (presentFields (writtenFields coding filters))]
    unfold serializeOrgChartFilters
    dsimp only
    split
    · next empty => rw [empty]; rfl
    · rw [utf16_question]
      rfl

end Reloading

/-- White space occurs as single spaces only. -/
structure Spaced (text : List Char) : Prop where
  spaces : ∀ character ∈ text, isWhiteSpace character → character = ' '
  single : text.IsChain fun left right => isWhiteSpace left → isWhiteSpace right = false

theorem Spaced.inside {part text : List Char} (spaced : Spaced text) (within : part <:+: text) :
    Spaced part :=
  ⟨fun character member => spaced.spaces character (within.subset member),
    List.IsChain.infix spaced.single within⟩

theorem replaceWhiteSpace_spaced (inRun : Bool) (text : List Char) :
    Spaced (replaceWhiteSpace inRun text) ∧
      (inRun = true → ∀ character ∈ (replaceWhiteSpace inRun text).head?,
        isWhiteSpace character = false) := by
  induction text generalizing inRun with
  | nil => exact ⟨⟨by simp [replaceWhiteSpace], .nil⟩, by simp [replaceWhiteSpace]⟩
  | cons character rest ih =>
      rw [replaceWhiteSpace]
      split
      · obtain ⟨later, fresh⟩ := ih true
        split
        · exact ⟨later, fun _ => fresh rfl⟩
        · next outside =>
            refine ⟨⟨?_, ?_⟩, fun inside => absurd inside outside⟩
            · intro other member white
              rcases List.mem_cons.mp member with rfl | member
              · rfl
              · exact later.spaces other member white
            · exact List.isChain_cons.mpr ⟨fun next head _ => fresh rfl next head, later.single⟩
      · next solid =>
          obtain ⟨later, _⟩ := ih false
          refine ⟨⟨?_, ?_⟩, fun _ other head => ?_⟩
          · intro other member white
            rcases List.mem_cons.mp member with rfl | member
            · exact absurd white solid
            · exact later.spaces other member white
          · exact List.isChain_cons.mpr ⟨fun _ _ white => absurd white solid, later.single⟩
          · cases head
            exact Bool.eq_false_iff.mpr solid

theorem replaceWhiteSpace_of_spaced (spaced : Spaced text) (inRun : Bool)
    (fresh : inRun = true → ∀ character ∈ text.head?, isWhiteSpace character = false) :
    replaceWhiteSpace inRun text = text := by
  induction text generalizing inRun with
  | nil => rfl
  | cons character rest ih =>
      obtain ⟨next, chain⟩ := List.isChain_cons.mp spaced.single
      have later : Spaced rest := spaced.inside (List.suffix_cons character rest).isInfix
      rw [replaceWhiteSpace]
      split
      · next white =>
          split
          · next inside =>
              have solid := fresh inside character rfl
              rw [white] at solid
              cases solid
          · rw [ih later true fun _ other head => next other head white,
              spaced.spaces character (by simp) white]
      · rw [ih later false fun impossible => by cases impossible]

theorem trim_inside (text : List Char) : trim text <:+: text :=
  List.IsInfix.trans (List.rdropWhile_prefix isTrimmed _).isInfix
    (List.dropWhile_suffix isTrimmed).isInfix

theorem dropWhile_head (text : List Char) : ∀ character ∈ (text.dropWhile isTrimmed).head?,
    isTrimmed character = false := by
  induction text with
  | nil => simp
  | cons character rest ih =>
      by_cases trimmed : isTrimmed character = true
      · rw [List.dropWhile_cons_of_pos trimmed]
        exact ih
      · rw [List.dropWhile_cons_of_neg trimmed]
        intro other head
        cases head
        exact Bool.eq_false_iff.mpr trimmed

theorem trim_ends (text : List Char) :
    (∀ character ∈ (trim text).head?, isTrimmed character = false) ∧
      ∀ character ∈ (trim text).getLast?, isTrimmed character = false := by
  constructor
  · intro character head
    have start : (trim text).head? = some character := head
    obtain ⟨rest, whole⟩ := List.rdropWhile_prefix isTrimmed (text.dropWhile isTrimmed)
    apply dropWhile_head text
    rw [← whole, Option.mem_def, List.head?_append]
    rw [trim] at start
    rw [start, Option.some_or]
  · intro character last
    have nonempty : trim text ≠ [] := by
      intro empty
      rw [empty] at last
      cases last
    have final := List.rdropWhile_last_not isTrimmed (text.dropWhile isTrimmed) nonempty
    rw [Option.mem_def, List.getLast?_eq_some_getLast nonempty] at last
    cases last
    exact Bool.eq_false_iff.mpr final

theorem trim_eq_self_iff :
    trim text = text ↔ (∀ character ∈ text.head?, isTrimmed character = false) ∧
      ∀ character ∈ text.getLast?, isTrimmed character = false := by
  constructor
  · intro same
    have ends := trim_ends text
    rwa [same] at ends
  · intro ⟨first, last⟩
    have started : text.dropWhile isTrimmed = text := by
      cases text with
      | nil => rfl
      | cons character rest =>
          exact List.dropWhile_cons_of_neg (Bool.eq_false_iff.mp (first character rfl))
    rw [trim, started, List.rdropWhile_eq_self_iff]
    intro nonempty
    exact Bool.eq_false_iff.mp (last _ (List.getLast?_eq_some_getLast nonempty))

theorem trim_trim (text : List Char) : trim (trim text) = trim text :=
  trim_eq_self_iff.mpr (trim_ends text)

section Cleaning

variable {coding : UrlCoding}

theorem UrlCoding.Lawful.nfkc_clean (lawful : coding.Lawful) (text : String) :
    coding.nfkc (cleanSearchQuery coding text) = cleanSearchQuery coding text := by
  obtain ⟨before, after, whole⟩ := trim_inside (coding.nfkc text).toList
  have trimmed : coding.nfkc (String.ofList (trim (coding.nfkc text).toList)) =
      String.ofList (trim (coding.nfkc text).toList) := by
    apply lawful.substring (String.ofList before) _ (String.ofList after)
    rw [← String.ofList_append, ← String.ofList_append, whole, String.ofList_toList]
    exact lawful.idempotent text
  have spaced := lawful.spaced _ trimmed
  rwa [String.toList_ofList] at spaced

theorem UrlCoding.Lawful.clean_clean (lawful : coding.Lawful) (text : String) :
    cleanSearchQuery coding (cleanSearchQuery coding text) =
      String.ofList (trim (cleanSearchQuery coding text).toList) := by
  have spaced : Spaced (cleanSearchQuery coding text).toList := by
    rw [cleanSearchQuery, String.toList_ofList]
    exact (replaceWhiteSpace_spaced false _).1
  rw [cleanSearchQuery, lawful.nfkc_clean,
    replaceWhiteSpace_of_spaced (spaced.inside (trim_inside _)) false fun impossible =>
      by cases impossible]

theorem UrlCoding.Lawful.clean_thrice (lawful : coding.Lawful) (text : String) :
    cleanSearchQuery coding (cleanSearchQuery coding (cleanSearchQuery coding text)) =
      cleanSearchQuery coding (cleanSearchQuery coding text) := by
  rw [lawful.clean_clean (cleanSearchQuery coding text), lawful.clean_clean text,
    String.toList_ofList, trim_trim]

end Cleaning

section RoundTrip

variable {coding : UrlCoding} {filters : OrgChartFilters} {hierarchy : List AgentDepartment}
  {search : List UInt16}

theorem UrlCoding.Lawful.clean_empty (lawful : coding.Lawful) :
    cleanSearchQuery coding "" = "" := by
  have normal : coding.nfkc "" = "" := by
    apply lawful.substring "" "" (coding.nfkc "")
    rw [String.empty_append, String.empty_append]
    exact lawful.idempotent ""
  rw [cleanSearchQuery, normal]
  rfl

theorem parse_query (coding : UrlCoding) (search : List UInt16) (hierarchy : List AgentDepartment) :
    (parseOrgChartFilters coding search hierarchy).q = "" ∨
      ∃ raw, (parseOrgChartFilters coding search hierarchy).q = cleanSearchQuery coding raw := by
  unfold parseOrgChartFilters
  split
  · exact .inl rfl
  · dsimp only [filtersOfParams]
    cases singleValue _ "q" with
    | none => exact .inl rfl
    | some rawQ =>
        rw [queryOfParam]
        split
        · exact .inr ⟨rawQ, rfl⟩
        · exact .inl rfl

theorem parse_cleaned (lawful : coding.Lawful) (search : List UInt16)
    (hierarchy : List AgentDepartment) :
    cleanSearchQuery coding
      (cleanSearchQuery coding (parseOrgChartFilters coding search hierarchy).q) =
      cleanSearchQuery coding (parseOrgChartFilters coding search hierarchy).q := by
  rcases parse_query coding search hierarchy with empty | ⟨raw, cleaned⟩
  · rw [empty, lawful.clean_empty, lawful.clean_empty]
  · rw [cleaned]
    exact lawful.clean_thrice raw

theorem writtenQuery_of_settled (settled : cleanSearchQuery coding filters.q = filters.q)
    (short : (utf16 filters.q).length ≤ MAX_RAW_SEARCH_LENGTH) :
    writtenQuery coding filters = if filters.q = "" then none else some filters.q := by
  rw [writtenQuery, settled]
  by_cases empty : filters.q = ""
  · rw [if_neg (fun written => written.1 empty), if_pos empty]
  · rw [if_pos ⟨empty, short⟩, if_neg empty]

theorem params_of_settled (settled : cleanSearchQuery coding filters.q = filters.q)
    (short : (utf16 filters.q).length ≤ MAX_RAW_SEARCH_LENGTH) :
    presentFields (writtenFields coding filters) = filters.params := by
  rw [writtenFields, writtenQuery_of_settled settled short]
  rfl

theorem serialize_fits (coding : UrlCoding) (filters : OrgChartFilters) :
    ¬ (utf16 (serializeOrgChartFilters coding filters)).length > MAX_QUERY_LENGTH ↔
      (utf16 (coding.writeParams (presentFields (writtenFields coding filters)))).length <
        MAX_QUERY_LENGTH := by
  unfold serializeOrgChartFilters
  dsimp only
  split
  · next empty =>
      rw [empty, utf16_empty]
      decide
  · rw [utf16_question, List.length_cons]
    omega

theorem serialize_default (lawful : coding.Lawful) :
    serializeOrgChartFilters coding DEFAULT_ORG_CHART_FILTERS = "" := by
  have settled : cleanSearchQuery coding DEFAULT_ORG_CHART_FILTERS.q =
    DEFAULT_ORG_CHART_FILTERS.q := lawful.clean_empty
  have short : (utf16 DEFAULT_ORG_CHART_FILTERS.q).length ≤ MAX_RAW_SEARCH_LENGTH := Nat.zero_le _
  have nothing : DEFAULT_ORG_CHART_FILTERS.params = [] := rfl
  unfold serializeOrgChartFilters
  rw [params_of_settled settled short, nothing, lawful.empty]
  exact if_pos rfl

theorem reloads_of_reread (lawful : coding.Lawful) (reread : parseOrgChartFilters coding
        (utf16 (serializeOrgChartFilters coding (parseOrgChartFilters coding search hierarchy)))
          hierarchy =
      parseOrgChartFilters coding search hierarchy) :
    (parseOrgChartFilters coding search hierarchy).Reloads coding := by
  have again := parse_cleaned lawful search hierarchy
  rw [parse_serialize lawful (parse_known coding search hierarchy)] at reread
  generalize parseOrgChartFilters coding search hierarchy = filters at *
  split at reread
  · next long =>
      rw [← reread, serialize_default lawful, utf16_empty] at long
      exact absurd long (Nat.not_lt_zero _)
  · next short =>
      have query := congrArg (fun again : OrgChartFilters => again.q) reread
      dsimp only at query
      rw [serialize_fits] at short
      unfold writtenQuery at query
      dsimp only at query
      split at query
      · next written =>
          rw [Option.map_some, Option.getD_some, again] at query
          have bounded := written.2
          rw [query] at bounded
          rw [params_of_settled query bounded] at short
          exact ⟨query, bounded, short⟩
      · have empty : filters.q = "" := query.symm
        have settled : cleanSearchQuery coding filters.q = filters.q := by
          rw [empty, lawful.clean_empty]
        have bounded : (utf16 filters.q).length ≤ MAX_RAW_SEARCH_LENGTH := by
          rw [empty, utf16_empty]
          exact Nat.zero_le _
        rw [params_of_settled settled bounded] at short
        exact ⟨settled, bounded, short⟩

theorem reread_of_reloads (lawful : coding.Lawful) (known : filters.Known hierarchy)
    (reloads : filters.Reloads coding) :
    parseOrgChartFilters coding (utf16 (serializeOrgChartFilters coding filters)) hierarchy =
      filters := by
  have short := reloads.fits
  rw [← params_of_settled reloads.settled reloads.short, ← serialize_fits] at short
  rw [parse_serialize lawful known, if_neg short,
    writtenQuery_of_settled reloads.settled reloads.short]
  by_cases empty : filters.q = ""
  · rw [if_pos empty, Option.map_none, Option.getD_none, ← empty]
  · rw [if_neg empty, Option.map_some, Option.getD_some, reloads.settled]

/-- The parameters that a search string is read as. -/
def searchParams (coding : UrlCoding) (search : List UInt16) : List (String × String) :=
  coding.readParams (if search.head? = some questionMark then search.tail else search)

/-- The query of the parameters in normal form and trimmed, where it is short enough to be read. -/
def trimmedQuery (coding : UrlCoding) (params : List (String × String)) : List Char :=
  match singleValue params "q" with
  | some rawQ =>
      if (utf16 rawQ).length ≤ MAX_RAW_SEARCH_LENGTH then trim (coding.nfkc rawQ).toList else []
  | none => []

/-- That query with every run of white space as one space. -/
def spacedQuery (coding : UrlCoding) (params : List (String × String)) : String :=
  String.ofList (replaceWhiteSpace false (trimmedQuery coding params))

/-- The parameters that name something known. -/
def acceptedFields (coding : UrlCoding) (params : List (String × String))
    (hierarchy : List AgentDepartment) : List (String × Option String) :=
  let department := (singleValue params "department").filter (· ∈ departmentIds hierarchy)
  [("q", if spacedQuery coding params = "" then none else some (spacedQuery coding params)),
    ("department", department),
    ("function", (singleValue params "function").filter fun rawFunction =>
      department.isSome && functionOwner hierarchy rawFunction = department),
    ("deployment", (singleValue params "deployment").filter (· ∈ DEPLOYMENTS.map (·.value))),
    ("run", (singleValue params "run").filter (· ∈ RUN_STATES.map (·.value))),
    ("capability", (singleValue params "capability").filter (· ∈ capabilityIds hierarchy))]

/-- The trimmed query has no next line at an end, and the limits still hold behind the
expansions. -/
structure SettledSearch (coding : UrlCoding) (params : List (String × String))
    (hierarchy : List AgentDepartment) : Prop where
  first : (trimmedQuery coding params).head? ≠ some '\u0085'
  last : (trimmedQuery coding params).getLast? ≠ some '\u0085'
  short : (utf16 (spacedQuery coding params)).length ≤ MAX_RAW_SEARCH_LENGTH
  fits : (utf16 (coding.writeParams
    (presentFields (acceptedFields coding params hierarchy)))).length < MAX_QUERY_LENGTH

def spaceOf (character : Char) : Char := if isWhiteSpace character then ' ' else character

theorem replaceWhiteSpace_head? (text : List Char) :
    (replaceWhiteSpace false text).head? = text.head?.map spaceOf := by
  cases text with
  | nil => rfl
  | cons character rest =>
      rw [replaceWhiteSpace, List.head?_cons, Option.map_some, spaceOf]
      split <;> rfl

theorem replaceWhiteSpace_behind {before : Char} {inRun : Bool} (kept : spaceOf before = before)
    (run : inRun = true → before = ' ') :
    (before :: replaceWhiteSpace inRun text).getLast? = (before :: text).getLast?.map spaceOf := by
  induction text generalizing before inRun with
  | nil => rw [replaceWhiteSpace, List.getLast?_singleton, Option.map_some, kept]
  | cons character rest ih =>
      rw [replaceWhiteSpace, List.getLast?_cons_cons]
      split
      · next white =>
          have same : (character :: rest).getLast?.map spaceOf =
              (' ' :: rest).getLast?.map spaceOf := by
            have replaced : spaceOf character = ' ' := if_pos white
            cases rest with
            | nil => simp [replaced, show spaceOf ' ' = ' ' by decide]
            | cons next rest => rw [List.getLast?_cons_cons, List.getLast?_cons_cons]
          rw [same, ← ih (show spaceOf ' ' = ' ' by decide) fun _ => rfl]
          split
          · next inside => rw [run inside]
          · rw [List.getLast?_cons_cons]
      · next solid =>
          rw [List.getLast?_cons_cons, ih (if_neg solid) fun impossible => by cases impossible]

theorem replaceWhiteSpace_getLast? (text : List Char) :
    (replaceWhiteSpace false text).getLast? = text.getLast?.map spaceOf := by
  cases text with
  | nil => rfl
  | cons character rest =>
      rw [replaceWhiteSpace]
      split
      · next white =>
          have replaced : spaceOf character = ' ' := if_pos white
          refine (replaceWhiteSpace_behind (show spaceOf ' ' = ' ' by decide) fun _ => rfl).trans ?_
          cases rest with
          | nil => simp [replaced, show spaceOf ' ' = ' ' by decide]
          | cons next rest => rw [List.getLast?_cons_cons, List.getLast?_cons_cons]
      · next solid =>
          exact replaceWhiteSpace_behind (if_neg solid) fun impossible => by cases impossible

theorem trimmed_spaceOf {character : Char} (solid : isTrimmed character = false) :
    isTrimmed (spaceOf character) = false ↔ character ≠ '\u0085' := by
  by_cases white : isWhiteSpace character = true
  · have code : character.toNat = 0x85 := by
      by_contra other
      simp [isTrimmed, white, other] at solid
    have same : character = '\u0085' := by
      rw [← Char.ofNat_toNat character, code]
    rw [same]
    decide
  · rw [spaceOf, if_neg white]
    refine ⟨fun _ same => white (by rw [same]; decide), fun _ => solid⟩

theorem trimmedQuery_ends (coding : UrlCoding) (params : List (String × String)) :
    (∀ character ∈ (trimmedQuery coding params).head?, isTrimmed character = false) ∧
      ∀ character ∈ (trimmedQuery coding params).getLast?, isTrimmed character = false := by
  unfold trimmedQuery
  split
  · split
    · exact trim_ends _
    · simp
  · simp

theorem trim_spacedQuery (coding : UrlCoding) (params : List (String × String)) :
    trim (spacedQuery coding params).toList = (spacedQuery coding params).toList ↔
      (trimmedQuery coding params).head? ≠ some '\u0085' ∧
        (trimmedQuery coding params).getLast? ≠ some '\u0085' := by
  obtain ⟨first, last⟩ := trimmedQuery_ends coding params
  have ends : ∀ {found : Option Char}, (∀ character ∈ found, isTrimmed character = false) →
      ((∀ character ∈ found.map spaceOf, isTrimmed character = false) ↔ found ≠ some '\u0085') := by
    intro found solid
    cases found with
    | none => simp
    | some character =>
        rw [Option.map_some, Ne, Option.some.injEq, ← Ne, ← trimmed_spaceOf (solid character rfl)]
        simp
  rw [trim_eq_self_iff, spacedQuery, String.toList_ofList, replaceWhiteSpace_head?,
    replaceWhiteSpace_getLast?, ends first, ends last]

theorem queryOfParam_spaced (coding : UrlCoding) (params : List (String × String)) :
    queryOfParam coding (singleValue params "q") = spacedQuery coding params := by
  rw [spacedQuery, trimmedQuery]
  cases singleValue params "q" with
  | none => rfl
  | some rawQ =>
      rw [queryOfParam]
      dsimp only
      split <;> rfl

theorem option_values {α : Type} {options : List α} {value : α → String}
    (raw : Option String) : (raw.bind fun text => options.find? (value · = text)).map value =
      raw.filter (· ∈ options.map value) := by
  cases raw with
  | none => rfl
  | some text =>
      rw [Option.bind_some, Option.filter_some]
      cases found : options.find? (value · = text) with
      | none =>
          have missing := List.find?_eq_none.mp found
          rw [if_neg, Option.map_none]
          simpa using missing
      | some option =>
          have named : value option = text := by simpa using List.find?_some found
          rw [if_pos, Option.map_some, named]
          exact decide_eq_true (List.mem_map.mpr ⟨option, List.mem_of_find?_eq_some found, named⟩)

theorem params_accepted (params : List (String × String)) :
    (filtersOfParams coding params hierarchy).params =
      presentFields (acceptedFields coding params hierarchy) := by
  rw [OrgChartFilters.params, acceptedFields, filtersOfParams]
  dsimp only
  rw [queryOfParam_spaced, option_values, option_values]

theorem reloads_iff (lawful : coding.Lawful) :
    (parseOrgChartFilters coding search hierarchy).Reloads coding ↔
    search.length > MAX_QUERY_LENGTH ∨
      SettledSearch coding (searchParams coding search) hierarchy := by
  by_cases long : search.length > MAX_QUERY_LENGTH
  · rw [parseOrgChartFilters, if_pos long]
    refine ⟨fun _ => .inl long, fun _ => ⟨lawful.clean_empty, Nat.zero_le _, ?_⟩⟩
    rw [show DEFAULT_ORG_CHART_FILTERS.params = [] from rfl, lawful.empty, utf16_empty]
    decide
  · have parsed : parseOrgChartFilters coding search hierarchy =
        filtersOfParams coding (searchParams coding search) hierarchy := if_neg long
    have query : (parseOrgChartFilters coding search hierarchy).q =
        spacedQuery coding (searchParams coding search) := by
      rw [parsed]
      exact queryOfParam_spaced coding _
    have fields : (parseOrgChartFilters coding search hierarchy).params =
        presentFields (acceptedFields coding (searchParams coding search) hierarchy) := by
      rw [parsed]
      exact params_accepted _
    have settled : cleanSearchQuery coding (parseOrgChartFilters coding search hierarchy).q =
        (parseOrgChartFilters coding search hierarchy).q ↔
          trim (spacedQuery coding (searchParams coding search)).toList =
            (spacedQuery coding (searchParams coding search)).toList := by
      rcases parse_query coding search hierarchy with empty | ⟨raw, cleaned⟩
      · rw [← query, empty, lawful.clean_empty]
        decide
      · rw [cleaned, lawful.clean_clean, ← cleaned, query, ← String.toList_inj,
          String.toList_ofList]
    rw [trim_spacedQuery] at settled
    constructor
    · intro reloads
      obtain ⟨first, last⟩ := settled.mp reloads.settled
      exact .inr ⟨first, last, query ▸ reloads.short, fields ▸ reloads.fits⟩
    · rintro (beyond | settles)
      · exact absurd beyond long
      · exact ⟨settled.mpr ⟨settles.first, settles.last⟩, query ▸ settles.short,
          fields ▸ settles.fits⟩

/-- The filters of an address come back from their own address, which then stays the same, exactly
when the address is too long to be read, or its trimmed query has no next line at an end and the
expansions stay within the limits. -/
theorem filterUrl_roundTrip (lawful : coding.Lawful) (search : List UInt16)
    (hierarchy : List AgentDepartment) :
    let filters := parseOrgChartFilters coding search hierarchy
    let reread := parseOrgChartFilters coding
      (utf16 (serializeOrgChartFilters coding filters)) hierarchy
    (reread = filters ∧ serializeOrgChartFilters coding reread =
      serializeOrgChartFilters coding filters) ↔
      search.length > MAX_QUERY_LENGTH ∨
          SettledSearch coding (searchParams coding search) hierarchy := by
  dsimp only
  rw [← reloads_iff lawful]
  constructor
  · intro ⟨reread, _⟩
    exact reloads_of_reread lawful reread
  · intro reloads
    have reread := reread_of_reloads lawful (parse_known coding search hierarchy) reloads
    exact ⟨reread, by rw [reread]⟩

end RoundTrip

namespace PlainAddress

open Library

def coding : UrlCoding where
  nfkc text := text
  readParams units := UrlEncoded.read (units.map fun unit => Char.ofNat unit.toNat)
  writeParams params := String.ofList (UrlEncoded.write params)

theorem units_plain {text : List Char} (plain : ∀ character ∈ text, character.toNat < 128) :
    (utf16 (String.ofList text)).map (fun unit => Char.ofNat unit.toNat) = text := by
  rw [utf16, String.toList_ofList]
  induction text with
  | nil => rfl
  | cons character rest ih =>
      have bounded := plain character (by simp)
      have unit : character.toNat.toUInt16.toNat = character.toNat := by
        rw [UInt16.toNat_ofNat']
        exact Nat.mod_eq_of_lt (by omega)
      rw [List.flatMap_cons]
      dsimp only
      rw [if_pos (by omega), List.singleton_append, List.map_cons, unit, Char.ofNat_toNat,
        ih fun other member => plain other (by simp [member])]

theorem lawful : coding.Lawful where
  lossless params := by
    unfold coding
    dsimp only
    rw [units_plain (UrlEncoded.write_plain params), UrlEncoded.read_write]
  empty := rfl
  idempotent _ := rfl
  substring _ _ _ _ := rfl
  spaced _ _ := rfl

theorem parse_written (params : List (String × String)) (hierarchy : List AgentDepartment)
    (short : (utf16 (coding.writeParams params)).length < MAX_QUERY_LENGTH) :
    parseOrgChartFilters coding (utf16 ("?" ++ coding.writeParams params)) hierarchy =
      filtersOfParams coding params hierarchy := by
  have fits : ¬ (utf16 ("?" ++ coding.writeParams params)).length > MAX_QUERY_LENGTH := by
    rw [utf16_question, List.length_cons]
    omega
  rw [parseOrgChartFilters, if_neg fits, utf16_question]
  dsimp only
  rw [List.head?_cons, if_pos rfl, List.tail_cons, lawful.lossless]

theorem parse_agent : parseOrgChartFilters coding (utf16 "?q=A+agent&run=completed") [] =
    ⟨"A agent", none, none, none, some .completed, none⟩ := by
  have written : "?q=A+agent&run=completed" = "?" ++
      coding.writeParams [("q", "A agent"), ("run", "completed")] := by
    decide +kernel
  rw [written, parse_written _ _ (by decide +kernel)]
  decide +kernel

theorem filterUrl_roundTrip_agent :
    let filters := parseOrgChartFilters coding (utf16 "?q=A+agent&run=completed") []
    let reread := parseOrgChartFilters coding (utf16 (serializeOrgChartFilters coding filters)) []
    reread = filters ∧ serializeOrgChartFilters coding reread =
        serializeOrgChartFilters coding filters := by
  apply (filterUrl_roundTrip lawful (utf16 "?q=A+agent&run=completed") []).mpr
  rw [← reloads_iff lawful, parse_agent]
  exact ⟨by decide +kernel, by decide +kernel, by decide +kernel⟩

theorem parse_nextLine : parseOrgChartFilters coding (utf16 "?q=%C2%85a") [] =
    ⟨" a", none, none, none, none, none⟩ := by
  have written : "?q=%C2%85a" = "?" ++ coding.writeParams [("q", "\u0085a")] := by decide +kernel
  rw [written, parse_written _ _ (by decide +kernel)]
  decide +kernel

/-- A next line before the query becomes a space, which the address of the filters loses. -/
theorem nextLine_lost :
    let filters := parseOrgChartFilters coding (utf16 "?q=%C2%85a") []
    let reread := parseOrgChartFilters coding (utf16 (serializeOrgChartFilters coding filters)) []
    coding.Lawful ∧ filters.q = " a" ∧ reread.q = "a" ∧
      ¬ (reread = filters ∧ serializeOrgChartFilters coding reread =
          serializeOrgChartFilters coding filters) := by
  have written : serializeOrgChartFilters coding ⟨" a", none, none, none, none, none⟩ =
      "?" ++ coding.writeParams [("q", "a")] := by decide +kernel
  have again : parseOrgChartFilters coding (utf16 ("?" ++ coding.writeParams [("q", "a")])) [] =
      ⟨"a", none, none, none, none, none⟩ := by
    rw [parse_written _ _ (by decide +kernel)]
    decide +kernel
  dsimp only
  rw [parse_nextLine, written, again]
  exact ⟨lawful, rfl, rfl, fun same => absurd same.1 (by decide)⟩

end PlainAddress

end MarketingAgents
