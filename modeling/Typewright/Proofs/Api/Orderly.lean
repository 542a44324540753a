import Typewright.Proofs.Api.Components
import Typewright.Proofs.Api.Registered
import Typewright.Proofs.Pointer.Segments

/-!
# Orderly documents

An orderly document refers to its own components only, and to path items and callbacks only where
one is expected (`Api.Orderly`).  Then every reference is mentioned and declared by one path, which
its segments tell (`Api.namedPath?`), and a walk through the document keeps to the register of these
paths (`Api.Orderly.gives_documentFragments`, `Api.Orderly.gives_expand`).
-/

namespace Typewright.Api

/-! ### Paths by segments -/

/-- The kinds of components that declare something under their own reference. -/
def declaringBuckets : List String :=
  ["schemas", "requestBodies", "parameters", "responses", "headers"]

/-- The name of a parameter in the segment of its site, where it follows the place and a point. -/
def parameterName (segment : String) : String :=
  String.ofList ((segment.toList.dropWhile (· != '.')).drop 1)

/-- The path by which the reference with these segments is mentioned; only components, enums and the
    parameters, bodies and responses of operations are. -/
def namedPath? (space : String) : List String → Option (List String)
  | ["enums", name] => some (EnumDeclaration.pathOf name)
  | ["operations", id, "requestBody"] => some [space, Naming.identifier id, "Body"]
  | ["operations", id, "parameters", key] =>
    some [space, Naming.identifier id, "Parameters", Naming.identifier (parameterName key)]
  | ["operations", id, "responses", status] =>
    some [space, Naming.identifier id, "Responses", Naming.identifier status]
  | ["components", bucket, name] =>
    if bucket ∈ declaringBuckets then some (["components", bucket, name].map Naming.identifier)
    else none
  | _ => none

/-- The register of an orderly document. -/
def apiRegister (space : String) : Register where
  announced reference :=
    ∃ bucket ∈ componentBuckets, ∃ name, Pointer.split reference = [componentsKey, bucket, name]
  names reference path := namedPath? space (Pointer.split reference) = some path
  declares reference path :=
    ∀ path', namedPath? space (Pointer.split reference) = some path' → path = path'
  members reference := namedPath? space (Pointer.split reference) = none

/-- The place of a parameter holds no point, so the name is all behind the first one. -/
theorem parameterName_eq {place name : String} (h : '.' ∉ place.toList) :
    parameterName (place ++ "." ++ name) = name := by
  have htext : (place ++ "." ++ name).toList = place.toList ++ '.' :: name.toList := by
    simp [String.toList_append]
  have hdrop : (place.toList ++ '.' :: name.toList).dropWhile (· != '.') = '.' :: name.toList := by
    rw [List.dropWhile_append_of_pos]
    · rfl
    · intro c hc
      simpa using fun heq : c = '.' => h (heq ▸ hc)
  rw [parameterName, htext, hdrop]
  exact String.ofList_toList

section Register

variable {site : Site} {segments : List String}

theorem split_site_child (hsplit : Pointer.split site.reference = segments) (segment name : String)
    (h : segment ≠ "") :
    Pointer.split (site.child segment name).reference = segments ++ [segment] := by
  rw [← hsplit]
  exact Pointer.split_child site.reference h

/-- A site whose segments name a path is mentioned and declared by that path. -/
theorem declares_and_names (space : String) (hsplit : Pointer.split site.reference = segments)
    (h : namedPath? space segments = some site.path) :
    (apiRegister space).Declares site ∧ (apiRegister space).Names site := by
  rw [← hsplit] at h
  exact ⟨fun path' hpath' => Option.some.inj (h.symm.trans hpath'), h⟩

/-- A site whose segments name no path may be declared, or be a member, under any path. -/
theorem declares_of_none (space : String) (hsplit : Pointer.split site.reference = segments)
    (h : namedPath? space segments = none) :
    (apiRegister space).Declares site ∧ (apiRegister space).members site.reference := by
  rw [← hsplit] at h
  exact ⟨fun path' hpath' => absurd (h.symm.trans hpath') (by simp), h⟩

theorem takesEnums_apiRegister (space : String) : (apiRegister space).TakesEnums := by
  intro wish n
  have hpath : namedPath? space ["enums", Naming.numbered (Naming.identifier wish) n] =
      some (EnumDeclaration.pathOf (Naming.numbered (Naming.identifier wish) n)) := rfl
  rw [← EnumDeclaration.split_referenceOf] at hpath
  exact ⟨hpath, fun path' hpath' => Option.some.inj (hpath.symm.trans hpath')⟩

/-! ### The sites of operations -/

variable {walk : Walk} {id : String}

theorem split_operationSite (walk : Walk) (hid : id ≠ "") :
    Pointer.split (walk.operationSite id).reference = ["operations", id] :=
  Pointer.split_join (by simpa using hid)

/-- The segments of what is declared directly under an operation. -/
theorem split_operationSite_child (walk : Walk) (hid : id ≠ "") (segment name : String)
    (h : segment ≠ "") :
    Pointer.split ((walk.operationSite id).child segment name).reference =
      ["operations", id, segment] :=
  split_site_child (split_operationSite walk hid) segment name h

/-- The members of an input have no path of their own, whatever their names are. -/
theorem namedPath?_field (space id name : String) :
    namedPath? space (["operations", id, "input"] ++ [name].filter (· ≠ "")) = none := by
  by_cases h : name = ""
  · rw [h]
    rfl
  · rw [List.filter_cons_of_pos (by simpa using h)]
    rfl

/-- Operations are named by their ids, below the space of the document. -/
theorem takesOperation_apiRegister (walk : Walk) (hid : id ≠ "") :
    (apiRegister walk.space).TakesOperation (walk.operationSite id) := by
  have hinput := split_operationSite_child walk hid "input" "Input" (by decide)
  have hbody := split_operationSite_child walk hid "requestBody" "Body" (by decide)
  have houtput := split_operationSite_child walk hid "output" "Output" (by decide)
  have hnamed : (apiRegister walk.space).Declares (walk.operationSite id).requestBody ∧
      (apiRegister walk.space).Names (walk.operationSite id).requestBody :=
    declares_and_names walk.space hbody rfl
  have hfield (name : String) : (apiRegister walk.space).members
      (((walk.operationSite id).child "input" "Input").child name name).reference := by
    -- An empty name adds no segment, so this is not a case of `split_site_child`.
    have hname := Pointer.split_child_eq ((walk.operationSite id).child "input" "Input").reference name
    rw [hinput] at hname
    exact (congrArg (namedPath? walk.space) hname).trans (namedPath?_field walk.space id name)
  exact ⟨(declares_of_none _ hinput rfl).1, hfield, hnamed.1, hnamed.2,
    (declares_of_none _ houtput rfl).1⟩

/-- The members of a response have no path of their own. -/
theorem takesResponse_apiRegister (space : String) (hsite : (apiRegister space).Declares site)
    (hsplit : Pointer.split site.reference = segments)
    (hmembers : ∀ first rest, namedPath? space (segments ++ first :: rest) = none) :
    (apiRegister space).TakesResponse site := by
  have hbody := split_site_child hsplit "body" "body" (by decide)
  have hheaders := split_site_child hsplit "headers" "headers" (by decide)
  have hheader (name : String) : (apiRegister space).members
      ((site.child "headers" "headers").child name name).reference := by
    have hname := Pointer.split_child_eq (site.child "headers" "headers").reference name
    rw [hheaders, List.append_assoc, List.singleton_append] at hname
    exact (congrArg (namedPath? space) hname).trans (hmembers _ _)
  exact ⟨hsite, (declares_of_none _ hbody (hmembers _ _)).2,
    (declares_of_none _ hheaders (hmembers _ _)).2, hheader⟩

theorem takesStatus_apiRegister (walk : Walk) (hid : id ≠ "") {status : String}
    (hstatus : status ≠ "") :
    (apiRegister walk.space).TakesStatus (walk.operationSite id) status := by
  have hresponses := split_operationSite_child walk hid "responses" "Responses" (by decide)
  have hresponse : Pointer.split ((walk.operationSite id).response status).reference =
      ["operations", id, "responses", status] :=
    split_site_child hresponses status _ hstatus
  have hchild := split_site_child hresponse "status" "status" (by decide)
  have hnamed := declares_and_names walk.space hresponse rfl
  exact ⟨hnamed.2, takesResponse_apiRegister _ hnamed.1 hresponse fun _ _ => rfl,
    (declares_of_none _ hchild rfl).2⟩

/-- A parameter has its path below that of its operation, by its name without the place. -/
theorem takesParameter_apiRegister (walk : Walk) (hid : id ≠ "") {key : ParameterKey}
    (hplace : '.' ∉ key.place.toList) :
    (apiRegister walk.space).Declares ((walk.operationSite id).parameter key) ∧
      (apiRegister walk.space).Names ((walk.operationSite id).parameter key) := by
  have hparameters := split_operationSite_child walk hid "parameters" "Parameters" (by decide)
  have hkey : key.place ++ "." ++ key.name ≠ "" := by simp
  have hparameter : Pointer.split ((walk.operationSite id).parameter key).reference =
      ["operations", id, "parameters", key.place ++ "." ++ key.name] :=
    split_site_child hparameters _ _ hkey
  refine declares_and_names walk.space hparameter ?_
  rw [namedPath?, parameterName_eq hplace]
  rfl

/-! ### The sites of components -/

section Components

variable {reference bucket name : String}

theorem pathOf_component (context : Context)
    (hsplit : Pointer.split reference = [componentsKey, bucket, name]) :
    context.pathOf reference = [componentsKey, bucket, name].map Naming.identifier := by
  rw [Context.pathOf, declarationPath, hsplit]

theorem mem_declaringBuckets (h : bucket ∈ componentBuckets) (hcallbacks : bucket ≠ "callbacks")
    (hpathItems : bucket ≠ "pathItems") : bucket ∈ declaringBuckets := by
  have hbuckets : componentBuckets = declaringBuckets ++ ["callbacks", "pathItems"] := rfl
  rw [hbuckets, List.mem_append] at h
  refine h.resolve_right fun hrest => ?_
  simp [hcallbacks, hpathItems] at hrest

/-- Of the components just those of declaring buckets are named. -/
theorem namedPath?_component (space : String) :
    namedPath? space [componentsKey, bucket, name] =
      if bucket ∈ declaringBuckets then some ([componentsKey, bucket, name].map Naming.identifier)
      else none :=
  rfl

/-- A component has the path that is spelled by its reference. -/
theorem names_component (walk : Walk) (hbucket : bucket ∈ declaringBuckets)
    (hsplit : Pointer.split reference = [componentsKey, bucket, name]) :
    (apiRegister walk.space).names reference (walk.context.pathOf reference) := by
  change namedPath? walk.space (Pointer.split reference) = some _
  rw [hsplit, namedPath?_component, if_pos hbucket, pathOf_component _ hsplit]

theorem takesResponse_component (walk : Walk)
    (hsplit : Pointer.split reference = [componentsKey, bucket, name]) :
    (apiRegister walk.space).TakesResponse { reference, path := walk.context.pathOf reference } := by
  refine takesResponse_apiRegister _ (fun path' hpath' => ?_) hsplit fun _ _ => rfl
  change namedPath? walk.space (Pointer.split reference) = some path' at hpath'
  rw [hsplit, namedPath?_component, Option.ite_none_right_eq_some] at hpath'
  rw [← Option.some.inj hpath'.2]
  exact pathOf_component _ hsplit

end Components

end Register

/-! ### Orderly documents -/

/-- The parts of all path items and callbacks that are written in a document. -/
def documentParts (document : Json) : List Part :=
  let written :=
    collections.flatMap (fun collection => (document.entries? collection).getD [])
      ++ componentEntries document "pathItems"
  written.flatMap (fun entry => (PathItem.ofJson entry.2).parts)
    ++ (componentEntries document "callbacks").flatMap fun entry => (Callback.ofJson entry.2).parts

/-- The value of a part that is neither a path item nor a callback. -/
def Part.value? : Part → Option Json
  | link _ => none
  | operation _ => none
  | parameter value => some value
  | body value => some value
  | response _ value => some value

/-- The values in a document inside which neither a path item nor a callback is expected. -/
def plainValues (document : Json) : List Json :=
  (documentParts document).filterMap Part.value?
    ++ declaringBuckets.flatMap fun bucket => (componentEntries document bucket).map (·.2)

/-- A document that refers to its own components only, and to path items and callbacks only where
    one is expected.  No key is empty, and no place of a parameter has a point. -/
structure Orderly (document : Json) : Prop where
  references : ∀ reference ∈ Pointer.references document,
    ∃ bucket ∈ componentBuckets, ∃ name, Pointer.split reference = [componentsKey, bucket, name]
  plain : ∀ value ∈ plainValues document, ∀ reference ∈ Pointer.references value,
    ¬ AddressesPaths reference
  keys : "" ∉ document.keys
  places : ∀ value, .parameter value ∈ documentParts document →
    '.' ∉ (ParameterKey.ofJson value).place.toList

section Parts

variable {document : Json} {part : Part}

theorem inside_of_mem_collection {collection : String} {entry : String × Json}
    (h : entry ∈ (document.entries? collection).getD []) : entry.2.Inside document := by
  cases hentries : document.entries? collection with
  | none => simp [hentries] at h
  | some entries =>
    rw [hentries, Option.getD_some] at h
    exact Json.inside_of_mem_entries? hentries h

theorem value_inside_of_mem_componentEntries {bucket : String} {entry : String × Json}
    (h : entry ∈ componentEntries document bucket) : entry.2.Inside document := by
  obtain ⟨entries, hinside, hentry⟩ := inside_of_mem_componentEntries h
  exact (Json.Inside.field hentry).trans hinside

/-- The parts of a document stand inside it. -/
theorem from_document (h : part ∈ documentParts document) : part.From document := by
  rcases List.mem_append.1 h with h | h
  · obtain ⟨entry, hentry, hpart⟩ := List.mem_flatMap.1 h
    refine (from_pathItem hpart).trans ?_
    rcases List.mem_append.1 hentry with hentry | hentry
    · obtain ⟨collection, -, hentry⟩ := List.mem_flatMap.1 hentry
      exact inside_of_mem_collection hentry
    · exact value_inside_of_mem_componentEntries hentry
  · obtain ⟨entry, hentry, hpart⟩ := List.mem_flatMap.1 h
    exact (from_callback hpart).trans (value_inside_of_mem_componentEntries hentry)

theorem Part.From.inside_value {value : Json} (h : part.From document)
    (hvalue : part.value? = some value) : value.Inside document := by
  cases part with
  | link reference => exact absurd hvalue (by simp [value?])
  | operation id => exact absurd hvalue (by simp [value?])
  | parameter parameter => exact Option.some.inj hvalue ▸ h
  | body body => exact Option.some.inj hvalue ▸ h
  | response status response =>
    obtain ⟨fields, hinside, hmem⟩ := h
    rw [← Option.some.inj hvalue]
    exact (Json.Inside.field hmem).trans hinside

theorem inside_of_mem_plainValues {value : Json} (h : value ∈ plainValues document) :
    value.Inside document := by
  rcases List.mem_append.1 h with h | h
  · obtain ⟨part, hpart, hvalue⟩ := List.mem_filterMap.1 h
    exact (from_document hpart).inside_value hvalue
  · obtain ⟨bucket, -, hvalue⟩ := List.mem_flatMap.1 h
    obtain ⟨entry, hentry, rfl⟩ := List.mem_map.1 hvalue
    exact value_inside_of_mem_componentEntries hentry

end Parts

namespace Orderly

variable {document : Json} {walk : Walk}

/-- The references in an orderly document lead to components that are declared. -/
theorem coversIn (h : Orderly document) (walk : Walk) {value : Json}
    (hvalue : value ∈ plainValues document) : (apiRegister walk.space).CoversIn walk value := by
  intro reference hreference
  have hinside := inside_of_mem_plainValues hvalue
  have hannounced := h.references reference (Pointer.references_subset_of_inside hinside hreference)
  obtain ⟨bucket, hbucket, name, hsplit⟩ := hannounced
  refine ⟨⟨bucket, hbucket, name, hsplit⟩, names_component walk ?_ hsplit⟩
  -- In an orderly document nothing but a path item or a callback refers to one of these.
  have hcallbacks : bucket ≠ "callbacks" := by
    rintro rfl
    exact h.plain value hvalue reference hreference ⟨name, .inl hsplit⟩
  have hpathItems : bucket ≠ "pathItems" := by
    rintro rfl
    exact h.plain value hvalue reference hreference ⟨name, .inr hsplit⟩
  exact mem_declaringBuckets hbucket hcallbacks hpathItems

/-- The register takes all parts of an orderly document. -/
theorem takes (h : Orderly document) (walk : Walk) {part : Part}
    (hpart : part ∈ documentParts document) : (apiRegister walk.space).Takes walk part := by
  have hfrom := from_document hpart
  have hcovers {value : Json} (hvalue : part.value? = some value) :
      (apiRegister walk.space).CoversIn walk value :=
    h.coversIn walk (List.mem_append_left _ (List.mem_filterMap.2 ⟨part, hpart, hvalue⟩))
  cases part with
  | link reference => exact h.references reference hfrom
  | operation id => exact hfrom
  | parameter value =>
    exact ⟨hcovers rfl, fun _ id hid => takesParameter_apiRegister walk hid (h.places value hpart)⟩
  | body value => exact hcovers rfl
  | response status value =>
    -- The status is a key of the document.
    obtain ⟨fields, hinside, hmem⟩ := hfrom
    have hstatus : status ≠ "" := by
      rintro rfl
      exact h.keys (Json.mem_keys_of_inside hinside hmem)
    exact ⟨hcovers rfl, fun id hid => takesStatus_apiRegister walk hid hstatus⟩

/-- The register takes what a reference in an orderly document addresses. -/
theorem takesTarget {fields : List (String × Json)} (h : Orderly (.object fields))
    (hwalk : walk.document = normalize (.object fields)) {reference : String}
    (hannounced : (apiRegister walk.space).announced reference) {value : Json}
    (hvalue : Pointer.resolve walk.document (Pointer.split reference) = .ok value) :
    (apiRegister walk.space).TakesTarget walk reference value := by
  obtain ⟨bucket, hbucket, name, hsplit⟩ := hannounced
  rw [hwalk, hsplit] at hvalue
  have hmem := mem_componentEntries_of_resolve hbucket hvalue
  -- The bucket in which the reference was announced is the one that it is expanded by.
  have hbucketOf : Walk.bucketOf (Pointer.split reference) = bucket := by
    rw [hsplit, Walk.bucketOf, if_pos rfl]
  unfold Register.TakesTarget
  rw [hbucketOf]
  split
  · intro part hpart
    exact h.takes walk (List.mem_append_right _ (List.mem_flatMap.2 ⟨_, hmem, hpart⟩))
  · intro part hpart
    exact h.takes walk (List.mem_append_left _ (List.mem_flatMap.2
      ⟨_, List.mem_append_right _ hmem, hpart⟩))
  · next hcallbacks hpathItems =>
    have hdeclaring := mem_declaringBuckets hbucket hcallbacks hpathItems
    refine ⟨h.coversIn walk (List.mem_append_right _ ?_), takesResponse_component walk hsplit⟩
    exact List.mem_flatMap.2 ⟨bucket, hdeclaring, List.mem_map.2 ⟨_, hmem, rfl⟩⟩

/-- The schemas among the components may be announced, which they are from the beginning. -/
theorem announced_declaredSchemas {fields : List (String × Json)} (h : Orderly (.object fields))
    (hwalk : walk.document = normalize (.object fields)) :
    ∀ reference ∈ declaredSchemaReferences walk.document .api,
      (apiRegister walk.space).announced reference := by
  intro reference hreference
  obtain ⟨path, hpath, hreference⟩ := List.mem_flatMap.1 hreference
  obtain ⟨name, hname, rfl⟩ := List.mem_map.1 hreference
  rw [List.mem_singleton.1 hpath, hwalk, namesAt_normalize (by decide)] at hname
  obtain ⟨entry, hentry, rfl⟩ := List.mem_map.1 hname
  obtain ⟨entries, hinside, hentry⟩ := inside_of_mem_componentEntries hentry
  have hne : entry.1 ≠ "" := fun heq => h.keys (heq ▸ Json.mem_keys_of_inside hinside hentry)
  rw [List.mem_singleton.1 hpath]
  refine ⟨"schemas", by decide, entry.1, Pointer.split_join ?_⟩
  simpa [componentsKey] using hne

theorem suitsOperations (walk : Walk) : (apiRegister walk.space).SuitsOperations walk :=
  ⟨takesEnums_apiRegister walk.space, fun _ hid => takesOperation_apiRegister walk hid⟩

/-- The fragments that an orderly document starts from keep to its register. -/
theorem gives_documentFragments {fields : List (String × Json)} (h : Orderly (.object fields))
    (hwalk : walk.document = normalize (.object fields)) :
    walk.documentFragments.Gives (apiRegister walk.space).Registered := by
  refine Register.gives_documentFragments (suitsOperations walk) ?_ (h.announced_declaredSchemas hwalk)
  intro collection hcollection entry hentry part hpart
  have hne : collection ≠ componentsKey := by
    rintro rfl
    exact absurd hcollection (by decide)
  -- Normalizing leaves the fields that hold path items alone.
  rw [hwalk, entries?_normalize hne] at hentry
  refine h.takes walk (List.mem_append_left _ (List.mem_flatMap.2 ⟨entry, ?_, hpart⟩))
  exact List.mem_append_left _ (List.mem_flatMap.2 ⟨collection, hcollection, hentry⟩)

/-- An announced reference leads to a component, which is expanded by its bucket. -/
theorem gives_expand {fields : List (String × Json)} (h : Orderly (.object fields))
    (hwalk : walk.document = normalize (.object fields)) {reference : String}
    (hannounced : (apiRegister walk.space).announced reference) :
    (walk.expand reference).Gives (apiRegister walk.space).Registered := by
  have hexpand := Register.gives_expand (suitsOperations walk) fun _ hvalue =>
    h.takesTarget hwalk hannounced hvalue
  exact hexpand.mono fun _ hset => hset.1

end Orderly

end Typewright.Api
