import Homelab.Json.Patch
import Homelab.FilterPlugins.KubePlan

namespace Homelab.KubePlan

open Json (Object Pointer.parse Pointer.render Pointer.escape)

/-! # What the managed label patch does to a document -/

/-! ## Pointers of the patch -/

theorem replaceFrom_single (part : Char) (replacement chars : List Char) :
    replaceFrom [part] replacement 0 chars =
      chars.flatMap fun char => if char = part then replacement else [char] := by
  induction chars with
  | nil => rfl
  | cons char rest ih =>
      by_cases same : part = char
      · subst same
        simp [replaceFrom, ih]
      · simp [replaceFrom, ih, same, Ne.symm same]

theorem replaceText_escape (key : String) : replaceText "/" "~1" (replaceText "~" "~0" key) = Pointer.escape key := by
  have tilde : "~".toList = ['~'] := by decide
  have slash : "/".toList = ['/'] := by decide
  unfold replaceText Pointer.escape
  rw [tilde, slash, replaceFrom_single, replaceFrom_single]
  simp only [String.toList_ofList, List.flatMap_assoc]
  congr 1
  apply List.flatMap_congr
  intro char _
  by_cases isTilde : char = '~'
  · subst isTilde
    decide
  · by_cases isSlash : char = '/'
    · subst isSlash
      decide
    · simp [Json.Pointer.escapeChar, isTilde, isSlash]

/-- A key without `~` needs no first replacement. -/
theorem replaceText_plain {key : String} (plain : '~' ∉ key.toList) : replaceText "~" "~0" key = key := by
  have tilde : "~".toList = ['~'] := by decide
  unfold replaceText
  rw [tilde, replaceFrom_single]
  have same : key.toList.flatMap (fun char => if char = '~' then "~0".toList else [char]) = key.toList := by
    have each : ∀ char ∈ key.toList, (if char = '~' then "~0".toList else [char]) = [char] := by
      intro char member
      rw [if_neg]
      intro isTilde
      exact plain (isTilde ▸ member)
    rw [List.flatMap_congr each]
    simp
  rw [same, String.ofList_toList]

theorem parse_label (key : String) :
    Pointer.parse (labelsPath ++ "/" ++ Pointer.escape key) = some ["metadata", "labels", key] := by
  have rendered : labelsPath ++ "/" ++ Pointer.escape key = Pointer.render ["metadata", "labels", key] := by
    have head : labelsPath = "/" ++ Pointer.escape "metadata" ++ ("/" ++ Pointer.escape "labels") := by decide
    rw [head]
    simp [Pointer.render, String.append_assoc]
  rw [rendered, Json.Pointer.parse_render]

theorem parse_labels : Pointer.parse labelsPath = some ["metadata", "labels"] := by decide

theorem parse_uid : Pointer.parse "/metadata/uid" = some ["metadata", "uid"] := by decide

theorem parse_version : Pointer.parse "/metadata/resourceVersion" = some ["metadata", "resourceVersion"] := by
  decide

/-! ## Documents with new labels -/

/-- The document with other labels, and all else as it is. -/
def relabel (fields metadata labels : Object) : Json :=
  .obj (fields.set "metadata" (.obj (metadata.set "labels" (.obj labels))))

theorem relabel_metadata {fields metadata labels : Object} :
    (relabel fields metadata labels).child? "metadata" = some (.obj (metadata.set "labels" (.obj labels))) := by
  simp [relabel]

theorem relabel_same {fields metadata labels : Object} (found : fields.get? "metadata" = some (.obj metadata))
    (labelled : metadata.get? "labels" = some (.obj labels)) : relabel fields metadata labels = .obj fields := by
  rw [relabel, Object.set_get? metadata _ labelled, Object.set_get? fields _ found]

theorem relabel_add {fields metadata labels : Object} (key : String) (added : Json) :
    (relabel fields metadata labels).add ["metadata", "labels", key] added =
      some (relabel fields metadata (labels.set key added)) := by
  rw [Json.add_cons, relabel_metadata, Option.bind_some, Json.add_cons, Json.child?_obj, Object.get?_set_self,
    Option.bind_some, Json.add_member, Option.bind_some, Json.putChild_obj, Option.bind_some, relabel,
    Json.putChild_obj, Object.set_set, Object.set_set, relabel]

theorem relabel_remove {fields metadata labels : Object} {key : String} (present : hasLabel labels key = true) :
    (relabel fields metadata labels).remove ["metadata", "labels", key] =
      some (relabel fields metadata (labels.erase key)) := by
  rw [Json.remove_cons, relabel_metadata, Option.bind_some, Json.remove_cons, Json.child?_obj,
    Object.get?_set_self, Option.bind_some, Json.remove_member present, Option.bind_some, Json.putChild_obj,
    Option.bind_some, relabel, Json.putChild_obj, Object.set_set, Object.set_set, relabel]

/-! ## The operations of the patch -/

section Operations

variable {fields metadata : Object} {document : Json}

theorem apply_testOperation {path : String} {tokens : List String} (parsed : Pointer.parse path = some tokens)
    (expected : Json) (rest : List Json) :
    document.applyPatch (testOperation path expected :: rest) =
      if document.Reads tokens expected then document.applyPatch rest else none := by
  rw [Json.applyPatch_cons, testOperation, Json.apply_test parsed]
  split
  · rfl
  · rfl

theorem apply_additions (desired labels : Object) :
    (relabel fields metadata labels).applyPatch (labelAdditions desired) =
      some (relabel fields metadata (labels.update desired)) := by
  induction desired generalizing labels with
  | nil => rfl
  | cons entry rest ih =>
      rw [labelAdditions, List.map_cons, Json.applyPatch_cons, replaceText_escape, addOperation,
        Json.apply_add (parse_label entry.1), relabel_add, Option.bind_some]
      exact ih (labels.set entry.1 entry.2)

theorem apply_removals {labels current : Object} {opposite : String} (plain : '~' ∉ opposite.toList)
    (kept : hasLabel labels opposite = true → hasLabel current opposite = true) :
    (relabel fields metadata current).applyPatch (labelRemovals labels opposite) =
      some (relabel fields metadata (if hasLabel labels opposite then current.erase opposite else current)) := by
  unfold labelRemovals
  split
  · rename_i present
    have escaped : replaceText "/" "~1" opposite = Pointer.escape opposite := by
      rw [← replaceText_escape, replaceText_plain plain]
    rw [Json.applyPatch_cons, escaped, removeOperation, Json.apply_remove (parse_label opposite),
      relabel_remove (kept present), Option.bind_some]
    rfl
  · rfl

end Operations

/-! ## The patch as a whole -/

/-- The UID and the labels are those of the Node that was read or, when it had
no labels map, the UID and the resource version are. -/
def Unchanged (metadata : Object) (document : Json) : Prop :=
  document.Reads ["metadata", "uid"] (value metadata "uid") ∧
    match metadata.get? "labels" with
    | some labels => document.Reads ["metadata", "labels"] labels
    | none => document.Reads ["metadata", "resourceVersion"] (value metadata "resourceVersion")

/-- A document without a labels map is only the same when it still has none. -/
def Unlabelled (metadata : Object) (document : Json) : Prop :=
  metadata.get? "labels" = none → document.at? ["metadata", "labels"] = none

/-- The labels after the patch: the desired ones are set, the opposite one is
gone, and every other one is what it was. -/
def Repaired (desired : Object) (opposite : String) (before after : Object) : Prop :=
  ∀ key, after.get? key = if key = opposite then none else (desired.get? key).or (before.get? key)

/-- Only the labels of a document are different. -/
def Relabelled (desired : Object) (opposite : String) (document after : Json) : Prop :=
  ∃ fields metadata before labels : Object, document = .obj fields ∧
    fields.get? "metadata" = some (.obj metadata) ∧
    valueOr metadata "labels" (.obj []) = .obj before ∧
    after = relabel fields metadata labels ∧ Repaired desired opposite before labels

theorem mapping_ok {found : Json} {context : String} {fields : Object} (passed : mapping found context = .ok fields) :
    found = .obj fields := by
  cases found <;> simp [mapping] at passed
  rw [passed]

theorem text_ok {found : Json} {context name : String} (passed : text found context = .ok name) :
    found = .str name ∧ name ≠ "" := by
  cases found <;> simp only [text, reduceCtorEq] at passed
  rename_i written
  split at passed
  · cases passed
  · rename_i nonempty
    cases passed
    exact ⟨rfl, nonempty⟩

theorem member_obj {document found : Json} {token : String} (named : Json.Pointer.index token = none)
    (lookup : document.child? token = some found) :
    ∃ fields : Object, document = .obj fields ∧ fields.get? token = some found := by
  cases document with
  | obj fields => exact ⟨fields, rfl, lookup⟩
  | arr items => simp [Json.child?, named] at lookup
  | _ => cases lookup

/-- The metadata of a document with a UID is an object. -/
theorem metadata_obj {document : Json} {key : String} {expected : Json} (named : Json.Pointer.index key = none)
    (reads : document.Reads ["metadata", key] expected) :
    ∃ fields metadata : Object, ∃ found, document = .obj fields ∧ fields.get? "metadata" = some (.obj metadata) ∧
      metadata.get? key = some found ∧ Json.Same found expected := by
  obtain ⟨found, lookup, same⟩ := reads
  rw [Json.at?_cons] at lookup
  obtain ⟨inner, outer, lookup⟩ := Option.bind_eq_some_iff.mp lookup
  rw [Json.at?_cons] at lookup
  obtain ⟨last, inside, lookup⟩ := Option.bind_eq_some_iff.mp lookup
  cases lookup
  obtain ⟨fields, isObject, member⟩ := member_obj (by decide) outer
  obtain ⟨metadata, isMetadata, stored⟩ := member_obj named inside
  subst isMetadata
  exact ⟨fields, metadata, _, isObject, member, stored, same⟩

section Patch

variable {metadata desired : Object} {opposite : String} {patch : List Json} {document : Json}

theorem managedLabelPatch_ok (made : managedLabelPatch metadata desired opposite = .ok patch) :
    ∃ uid labels guarding, metadata.get? "uid" = some uid ∧ valueOr metadata "labels" (.obj []) = .obj labels ∧
      labelGuard metadata labels = .ok guarding ∧
      patch = testOperation "/metadata/uid" uid :: guarding ++ labelAdditions desired ++
        labelRemovals labels opposite := by
  obtain ⟨uid, identified, made⟩ := bind_ok made
  obtain ⟨labels, labelled, made⟩ := bind_ok made
  obtain ⟨guarding, guarded, made⟩ := bind_ok made
  cases made
  exact ⟨uid, labels, guarding, item_ok identified, mapping_ok labelled, guarded, rfl⟩

/-- The patch is refused as a whole when what it guards has changed. -/
theorem patch_refuses (made : managedLabelPatch metadata desired opposite = .ok patch)
    (changed : ¬ Unchanged metadata document) : document.applyPatch patch = none := by
  obtain ⟨uid, labels, guarding, identified, labelled, guarded, whole⟩ := managedLabelPatch_ok made
  rw [whole, List.cons_append, List.cons_append, List.append_assoc, apply_testOperation parse_uid]
  split
  · rename_i same
    have differs := changed
    rw [Unchanged, value_some identified, not_and] at differs
    have differs := differs same
    cases present : metadata.get? "labels" with
    | some map =>
        rw [present] at differs
        rw [valueOr, present, Option.getD_some] at labelled
        subst labelled
        rw [labelGuard, present] at guarded
        cases guarded
        rw [List.singleton_append, apply_testOperation parse_labels, if_neg differs]
    | none =>
        rw [present] at differs
        rw [labelGuard, present] at guarded
        obtain ⟨version, versioned, guarded⟩ := bind_ok guarded
        cases guarded
        rw [(text_ok versioned).1] at differs
        rw [List.cons_append, apply_testOperation parse_version, if_neg differs]
  · rfl

theorem hasLabel_same {left right : Object} (same : Json.Same (.obj left) (.obj right)) (key : String) :
    hasLabel left key = hasLabel right key := by
  have lookups := congrArg Option.isSome (same.get? key)
  simpa [hasLabel] using lookups

theorem repaired_update {labels current : Object} (distinct : (desired.map Prod.fst).Nodup)
    (fresh : opposite ∉ desired.map Prod.fst) (agree : hasLabel labels opposite = hasLabel current opposite) :
    Repaired desired opposite current
      (if hasLabel labels opposite then (current.update desired).erase opposite else current.update desired) := by
  intro key
  by_cases same : key = opposite
  · subst same
    rw [if_pos rfl]
    split
    · exact Object.get?_erase_self _
    · rename_i absent
      rw [agree, hasLabel, Bool.not_eq_true, Option.isSome_eq_false_iff, Option.isNone_iff_eq_none] at absent
      rw [Object.get?_update current distinct, Object.get?_eq_none fresh, absent]
      rfl
  · rw [if_neg same]
    split
    · rw [Object.get?_erase_ne _ (Ne.symm same), Object.get?_update current distinct]
    · rw [Object.get?_update current distinct]

theorem apply_edits (fields inner : Object) {labels current : Object} (distinct : (desired.map Prod.fst).Nodup)
    (fresh : opposite ∉ desired.map Prod.fst) (plain : '~' ∉ opposite.toList)
    (agree : hasLabel labels opposite = hasLabel current opposite) :
    ∃ after, (relabel fields inner current).applyPatch (labelAdditions desired ++ labelRemovals labels opposite) =
      some (relabel fields inner after) ∧ Repaired desired opposite current after := by
  have kept : hasLabel labels opposite = true → hasLabel (current.update desired) opposite = true := by
    intro present
    rw [agree] at present
    rw [hasLabel, Object.get?_update current distinct, Object.get?_eq_none fresh, Option.none_or]
    exact present
  refine ⟨_, ?_, repaired_update distinct fresh agree⟩
  rw [Json.applyPatch_append, apply_additions, Option.bind_some, apply_removals plain kept]

/-- The patch applies to every document that has what it guards. -/
theorem patch_applies (made : managedLabelPatch metadata desired opposite = .ok patch)
    (distinct : (desired.map Prod.fst).Nodup) (fresh : opposite ∉ desired.map Prod.fst)
    (plain : '~' ∉ opposite.toList) (same : Unchanged metadata document)
    (unlabelled : Unlabelled metadata document) :
    ∃ after, document.applyPatch patch = some after ∧ Relabelled desired opposite document after := by
  obtain ⟨uid, labels, guarding, identified, labelled, guarded, whole⟩ := managedLabelPatch_ok made
  obtain ⟨lifetime, same⟩ := same
  rw [value_some identified] at lifetime
  rw [whole, List.cons_append, List.cons_append, List.append_assoc, apply_testOperation parse_uid, if_pos lifetime]
  cases present : metadata.get? "labels" with
  | some map =>
      rw [present] at same
      rw [valueOr, present, Option.getD_some] at labelled
      subst labelled
      rw [labelGuard, present] at guarded
      cases guarded
      obtain ⟨fields, current, found, isObject, inside, stored, equal⟩ := metadata_obj (by decide) same
      obtain ⟨others, isMap⟩ := equal.obj
      subst isObject isMap
      obtain ⟨after, applied, repaired⟩ := apply_edits fields current
        distinct fresh plain (hasLabel_same equal.symm opposite)
      rw [List.singleton_append, apply_testOperation parse_labels, if_pos same]
      refine ⟨_, ?_, fields, current, others, after, rfl, inside, by rw [valueOr, stored]; rfl, rfl, repaired⟩
      rw [← applied, relabel_same inside stored]
  | none =>
      rw [present] at same
      rw [valueOr, present, Option.getD_none] at labelled
      cases labelled
      rw [labelGuard, present] at guarded
      obtain ⟨version, versioned, guarded⟩ := bind_ok guarded
      cases guarded
      rw [(text_ok versioned).1] at same
      obtain ⟨fields, current, found, isObject, inside, stored, equal⟩ := metadata_obj (by decide) same
      subst isObject
      have absent : current.get? "labels" = none := by
        have missing := unlabelled present
        rw [Json.at?_cons, Json.child?_obj, inside, Option.bind_some, Json.at?_cons, Json.child?_obj] at missing
        cases lookup : current.get? "labels" with
        | none => rfl
        | some map => rw [lookup] at missing; cases missing
      have created : (Json.obj fields).applyOperation (addOperation labelsPath (.obj [])) =
          some (relabel fields current []) := by
        rw [addOperation, Json.apply_add parse_labels, Json.add_cons, Json.child?_obj, inside]
        rfl
      obtain ⟨after, applied, repaired⟩ := apply_edits fields current
        distinct fresh plain (rfl : hasLabel [] opposite = hasLabel [] opposite)
      rw [List.cons_append, apply_testOperation parse_version, if_pos same, List.singleton_append,
        Json.applyPatch_cons, created, Option.bind_some]
      exact ⟨_, applied, fields, current, [], after, rfl, inside, by rw [valueOr, absent]; rfl, rfl, repaired⟩

end Patch

/-! ## Registration -/

/-- What the repair of a Node has read and checked. -/
structure Repair (plan request member node metadata labels desired : Object) (patch : List Json) : Prop where
  isMetadata : value node "metadata" = .obj metadata
  named : Json.Same (value metadata "name") (value request "nodeName")
  identified : holds metadata "uid" = true
  labelled : valueOr metadata "labels" (.obj []) = .obj labels
  wanted : desiredLabels plan member = .ok desired
  server : value labels serverLabel = .null ∨ Json.Same (value labels serverLabel) (value desired serverLabel)
  cluster : value labels clusterLabel = .null ∨ Json.Same (value labels clusterLabel) (value desired clusterLabel)
  addressed : ∃ status addresses internals, valueOr node "status" (.obj []) = .obj status ∧
    valueOr status "addresses" (.arr []) = .arr addresses ∧ internalAddresses addresses = .ok internals ∧
    Json.Same (.arr internals) (.arr [value request "address"])
  made : managedLabelPatch metadata desired (oppositeLabel member) = .ok patch

@[simp] theorem mapping_iff {found : Json} {context : String} {fields : Object} :
    mapping found context = .ok fields ↔ found = .obj fields := by
  constructor
  · exact mapping_ok
  · intro isObject
    subst isObject
    rfl

@[simp] theorem list_iff {found : Json} {message : String} {items : List Json} :
    list found message = .ok items ↔ found = .arr items := by
  cases found <;> simp [list]

@[simp] theorem text_iff {found : Json} {context name : String} :
    text found context = .ok name ↔ found = .str name ∧ name ≠ "" := by
  constructor
  · exact text_ok
  · intro ⟨isText, nonempty⟩
    subst isText
    rw [text, if_neg nonempty]

theorem bind_iff {ε α β : Type} {first : Except ε α} {next : α → Except ε β} {result : β} :
    first >>= next = .ok result ↔ ∃ value, first = .ok value ∧ next value = .ok result := by
  constructor
  · exact bind_ok
  · intro ⟨value, read, done⟩
    rw [read]
    exact done

theorem checkOwner_iff {desired labels : Object} {key : String} :
    checkOwner desired labels key = .ok () ↔
      value labels key = .null ∨ Json.Same (value labels key) (value desired key) := by
  simp [checkOwner]

theorem repairNode_iff {plan request member node result : Object} :
    repairNode plan request member node = .ok result ↔
      ∃ metadata labels desired patch, Repair plan request member node metadata labels desired patch ∧
        result = [("missing", .bool false),
          ("labelsChanged", .bool (drifts desired labels || hasLabel labels (oppositeLabel member))),
          ("labelPatch", .arr patch)] := by
  constructor
  · intro done
    obtain ⟨metadata, isMetadata, done⟩ := bind_ok done
    obtain ⟨_, checked, done⟩ := bind_ok done
    obtain ⟨labels, isLabels, done⟩ := bind_ok done
    obtain ⟨desired, wanted, done⟩ := bind_ok done
    obtain ⟨_, server, done⟩ := bind_ok done
    obtain ⟨_, cluster, done⟩ := bind_ok done
    obtain ⟨status, isStatus, done⟩ := bind_ok done
    obtain ⟨addresses, isList, done⟩ := bind_ok done
    obtain ⟨internals, read, done⟩ := bind_ok done
    obtain ⟨_, addressed, done⟩ := bind_ok done
    obtain ⟨patch, made, done⟩ := bind_ok done
    cases done
    have checked := demand_ok checked
    simp only [Bool.and_eq_true, decide_eq_true_eq] at checked
    refine ⟨metadata, labels, desired, patch, ⟨mapping_ok isMetadata, checked.1, checked.2, mapping_ok isLabels,
      wanted, ?_, ?_, ⟨status, addresses, internals, mapping_ok isStatus, list_iff.mp isList, read, ?_⟩, made⟩, rfl⟩
    · exact checkOwner_iff.mp server
    · exact checkOwner_iff.mp cluster
    · simpa using demand_ok addressed
  · intro ⟨metadata, labels, desired, patch, repair, same⟩
    obtain ⟨status, addresses, internals, isStatus, isList, read, addressed⟩ := repair.addressed
    have server := checkOwner_iff.mpr repair.server
    have cluster := checkOwner_iff.mpr repair.cluster
    simp [repairNode, repair.isMetadata, repair.named, repair.identified, repair.labelled, repair.wanted, server,
      cluster, isStatus, isList, read, addressed, repair.made, same, mapping, list]

/-- The request is for a member of the plan. -/
structure Selected (rawPlan : Json) (request plan member : Object) : Prop where
  isPlan : rawPlan = .obj plan
  named : ∃ indexed nodeName, membersByName rawPlan = .ok indexed ∧ value request "nodeName" = .str nodeName ∧
    nodeName ≠ "" ∧ indexed.get? nodeName = some (.obj member)
  uid : Json.Same (value member "uid") (value request "serverUID")
  role : Json.Same (value member "role") (value request "role")

theorem registrationAction_selected {rawPlan : Json} {request plan member node : Object}
    (selected : Selected rawPlan request plan member) (isNode : value request "node" = .obj node)
    (listed : node.isEmpty = false) :
    registrationAction rawPlan (.obj request) = repairNode plan request member node := by
  obtain ⟨indexed, nodeName, byName, isName, nonempty, found⟩ := selected.named
  have isText : text (value request "nodeName") "Node name" = .ok nodeName := text_iff.mpr ⟨isName, nonempty⟩
  rw [selected.isPlan] at byName ⊢
  simp only [registrationAction, mapping, byName, isText, ok_bind_eq, found, selected.uid, selected.role, isNode,
    listed, decide_true, Bool.and_self, demand_true, Bool.false_eq_true, if_false]

theorem registrationAction_ok {rawPlan : Json} {request result : Object}
    (accepted : registrationAction rawPlan (.obj request) = .ok result)
    (present : result.get? "missing" = some (.bool false)) :
    ∃ plan member node, Selected rawPlan request plan member ∧ value request "node" = .obj node ∧
      node.isEmpty = false ∧ repairNode plan request member node = .ok result := by
  obtain ⟨plan, isPlan, accepted⟩ := bind_ok accepted
  obtain ⟨other, isRequest, accepted⟩ := bind_ok accepted
  cases mapping_ok isRequest
  obtain ⟨indexed, byName, accepted⟩ := bind_ok accepted
  obtain ⟨nodeName, isName, accepted⟩ := bind_ok accepted
  split at accepted
  · rename_i member found
    obtain ⟨_, checked, accepted⟩ := bind_ok accepted
    obtain ⟨node, isNode, accepted⟩ := bind_ok accepted
    have checked := demand_ok checked
    simp only [Bool.and_eq_true, decide_eq_true_eq] at checked
    have isName := text_ok isName
    split at accepted
    · cases accepted
      cases present
    · rename_i listed
      exact ⟨plan, member, node, ⟨mapping_ok isPlan, ⟨indexed, nodeName, byName, isName.1, isName.2, found⟩,
        checked.1, checked.2⟩, mapping_ok isNode, by simpa using listed, accepted⟩
  · cases accepted

/-- Another Node in the request is compared with the same member. -/
theorem Selected.renew {rawPlan : Json} {request plan member : Object} (selected : Selected rawPlan request plan member)
    (renewed : Json) : Selected rawPlan (request.set "node" renewed) plan member := by
  obtain ⟨isPlan, named, uid, role⟩ := selected
  rw [← @value_set_ne request _ _ (by decide : "node" ≠ "nodeName") renewed] at named
  rw [← @value_set_ne request _ _ (by decide : "node" ≠ "serverUID") renewed] at uid
  rw [← @value_set_ne request _ _ (by decide : "node" ≠ "role") renewed] at role
  exact ⟨isPlan, named, uid, role⟩

theorem desiredLabels_ok {plan member desired : Object} (wanted : desiredLabels plan member = .ok desired) :
    ∃ server cluster role, value member "uid" = .str server ∧ value plan "uid" = .str cluster ∧
      value member "role" = .str role ∧
      desired = [(serverLabel, .str server), (clusterLabel, .str cluster), (roleLabel role, .str "")] := by
  obtain ⟨server, isServer, wanted⟩ := bind_ok wanted
  obtain ⟨cluster, isCluster, wanted⟩ := bind_ok wanted
  obtain ⟨role, isRole, wanted⟩ := bind_ok wanted
  cases wanted
  exact ⟨server, cluster, role, (text_ok isServer).1, (text_ok isCluster).1, (text_ok isRole).1, rfl⟩

theorem roleLabel_injective {role other : String} (same : roleLabel role = roleLabel other) : role = other := by
  unfold roleLabel at same
  exact (String.append_right_inj _).mp same

/-- The role labels have a domain of their own. -/
theorem roleLabel_ne_owner (role : String) {key : String} (owner : key ∈ [serverLabel, clusterLabel]) :
    roleLabel role ≠ key := by
  intro same
  have first : (roleLabel role).toList.head? = some 'n' := by
    have start : "node-role.kubernetes.io/".toList = 'n' :: "ode-role.kubernetes.io/".toList := by decide
    unfold roleLabel
    rw [String.toList_append, start, List.cons_append, List.head?_cons]
  have other : ∀ key ∈ [serverLabel, clusterLabel], key.toList.head? = some 'h' := by decide
  rw [same, other key owner] at first
  cases first

theorem opposite_ne {member : Object} {role : String} (isRole : value member "role" = .str role) :
    oppositeLabel member ≠ roleLabel role := by
  intro same
  have opposed := roleLabel_injective same
  by_cases control : role = "control-plane"
  · rw [isControlPlane, isRole, control] at opposed
    revert opposed
    decide
  · have worker : isControlPlane member = false := by
      rw [isControlPlane, isRole]
      simp [control]
    rw [worker] at opposed
    exact control opposed.symm

theorem opposite_plain (member : Object) : '~' ∉ (oppositeLabel member).toList := by
  unfold oppositeLabel
  cases isControlPlane member with
  | true => decide
  | false => decide

section Desired

variable {plan member desired : Object} (wanted : desiredLabels plan member = .ok desired)

include wanted

theorem desired_distinct : (desired.map Prod.fst).Nodup := by
  obtain ⟨server, cluster, role, _, _, _, same⟩ := desiredLabels_ok wanted
  subst same
  have owners : serverLabel ≠ clusterLabel := by decide
  have first := roleLabel_ne_owner role (by simp : serverLabel ∈ [serverLabel, clusterLabel])
  have second := roleLabel_ne_owner role (by simp : clusterLabel ∈ [serverLabel, clusterLabel])
  simp [owners, Ne.symm first, Ne.symm second]

theorem opposite_fresh : oppositeLabel member ∉ desired.map Prod.fst := by
  obtain ⟨server, cluster, role, _, _, isRole, same⟩ := desiredLabels_ok wanted
  subst same
  have opposed := opposite_ne isRole
  have owned : ∀ key ∈ [serverLabel, clusterLabel], oppositeLabel member ≠ key := fun key => roleLabel_ne_owner _
  simp [opposed, owned serverLabel, owned clusterLabel]

/-- Repaired labels neither drift nor contradict the role. -/
theorem repaired_settled {before after : Object} (repaired : Repaired desired (oppositeLabel member) before after) :
    (drifts desired after || hasLabel after (oppositeLabel member)) = false := by
  rw [Bool.or_eq_false_iff]
  constructor
  · rw [drifts, List.any_eq_false]
    intro entry listed
    have different : entry.1 ≠ oppositeLabel member := by
      intro same
      exact opposite_fresh wanted (same ▸ List.mem_map_of_mem listed)
    have found := Object.get?_of_mem (desired_distinct wanted) listed
    have reads := repaired entry.1
    rw [if_neg different, found, Option.some_or] at reads
    simp [value_some reads, Json.Same.refl]
  · rw [hasLabel, repaired, if_pos rfl]
    rfl

/-- Repaired labels name the owner. -/
theorem repaired_owned {before after : Object} (repaired : Repaired desired (oppositeLabel member) before after)
    {key : String} (listed : key ∈ [serverLabel, clusterLabel]) :
    Json.Same (value after key) (value desired key) := by
  have different : key ≠ oppositeLabel member := (roleLabel_ne_owner _ listed).symm
  obtain ⟨server, cluster, role, _, _, _, isDesired⟩ := desiredLabels_ok wanted
  have found : (desired.get? key).isSome := by
    subst isDesired
    cases List.mem_cons.mp listed with
    | inl first =>
        rw [first]
        rfl
    | inr second =>
        rw [List.mem_singleton.mp second]
        rfl
  obtain ⟨owner, found⟩ := Option.isSome_iff_exists.mp found
  have reads := repaired key
  rw [if_neg different, found, Option.some_or] at reads
  rw [value_some reads, value_some found]
  exact .refl owner

end Desired

/-! ## Convergence -/

/-- A document with the name and the status of the Node that was read. -/
def StillPresent (metadata node : Object) (document : Json) : Prop :=
  document.Reads ["metadata", "name"] (value metadata "name") ∧ document.child? "status" = node.get? "status"

theorem set_isEmpty (fields : Object) (key : String) (added : Json) : (fields.set key added).isEmpty = false := by
  cases fields with
  | nil => rfl
  | cons entry rest =>
      obtain ⟨name, old⟩ := entry
      by_cases same : name = key <;> simp [Object.set, same]

section Renewed

variable {rawPlan document after : Json} {request plan member desired : Object}

/-- Registration of a repaired document has nothing left to change. -/
theorem renewed_settled {renewed : Object} (selected : Selected rawPlan request plan member)
    (wanted : desiredLabels plan member = .ok desired)
    (relabelled : Relabelled desired (oppositeLabel member) document after)
    (done : registrationAction rawPlan (.obj (request.set "node" after)) = .ok renewed) :
    renewed.get? "labelsChanged" = some (.bool false) := by
  obtain ⟨fields, inner, before, labels, _, _, _, isAfter, repaired⟩ := relabelled
  rw [registrationAction_selected (selected.renew after) (by rw [value_set_self, isAfter, relabel])
    (set_isEmpty _ _ _)] at done
  obtain ⟨metadata, labels', desired', patch, repair, same⟩ := repairNode_iff.mp done
  have isMetadata := repair.isMetadata
  rw [value_set_self] at isMetadata
  cases isMetadata
  have labelled := repair.labelled
  rw [valueOr, Object.get?_set_self] at labelled
  cases labelled
  have settled := repaired_settled wanted repaired
  cases Except.ok.inj (wanted.symm.trans repair.wanted)
  rw [same, settled]
  rfl

/-- A repaired document is accepted again while its name and status last. -/
theorem renewed_accepted {node metadata labels : Object} {patch : List Json}
    (selected : Selected rawPlan request plan member)
    (repair : Repair plan request member node metadata labels desired patch) (same : Unchanged metadata document)
    (present : StillPresent metadata node document)
    (relabelled : Relabelled desired (oppositeLabel member) document after) :
    ∃ renewed, registrationAction rawPlan (.obj (request.set "node" after)) = .ok renewed := by
  obtain ⟨fields, inner, before, final, isObject, inside, _, isAfter, repaired⟩ := relabelled
  subst isObject
  obtain ⟨lifetime, _⟩ := same
  obtain ⟨_, _, uid, shape, place, identified, equal⟩ := metadata_obj (by decide) lifetime
  cases shape
  cases inside.symm.trans place
  obtain ⟨_, _, name, shape, place, named, sameName⟩ := metadata_obj (by decide) present.1
  cases shape
  cases inside.symm.trans place
  have status : (fields.set "metadata" (.obj (inner.set "labels" (.obj final)))).get? "status" = node.get? "status" := by
    rw [Object.get?_set_ne _ _ (by decide)]
    exact present.2
  have made : ∃ again, managedLabelPatch (inner.set "labels" (.obj final)) desired (oppositeLabel member) = .ok again := by
    have stored : (inner.set "labels" (.obj final)).get? "uid" = some uid := by
      rw [Object.get?_set_ne _ _ (by decide), identified]
    exact ⟨_, by simp [managedLabelPatch, item, stored, valueOr, mapping, labelGuard]; rfl⟩
  obtain ⟨again, made⟩ := made
  have renewal : Repair plan (request.set "node" after) member
      (fields.set "metadata" (.obj (inner.set "labels" (.obj final)))) (inner.set "labels" (.obj final)) final
      desired again := by
    constructor
    · exact value_set_self _ _ _
    · rw [value_set_ne (by decide), value_set_ne (by decide), value_some named]
      exact sameName.trans repair.named
    · have truthy := repair.identified
      rw [holds, Object.get?_set_ne _ _ (by decide), identified, Option.any_some, ← Json.truthy_canonical, equal,
        Json.truthy_canonical]
      cases stored : metadata.get? "uid" with
      | none => rw [holds, stored] at truthy; cases truthy
      | some found =>
          rw [holds, stored, Option.any_some] at truthy
          rw [value_some stored]
          exact truthy
    · rw [valueOr, Object.get?_set_self]
      rfl
    · exact repair.wanted
    · exact .inr (repaired_owned repair.wanted repaired (by simp))
    · exact .inr (repaired_owned repair.wanted repaired (by simp))
    · rw [valueOr, status, value_set_ne (by decide)]
      exact repair.addressed
    · exact made
  have isNode : value (request.set "node" after) "node" =
      .obj (fields.set "metadata" (.obj (inner.set "labels" (.obj final)))) := by
    rw [value_set_self, isAfter, relabel]
  have done := repairNode_iff.mpr ⟨_, _, _, _, renewal, rfl⟩
  rw [← registrationAction_selected (selected.renew after) isNode (set_isEmpty _ _ _)] at done
  exact ⟨_, done⟩

end Renewed

/-- The patch of an accepted Node repairs the labels of every document with the
same UID and labels, once and for all, and is refused by every other one. -/
theorem label_patch_converges {rawPlan : Json} {request result : Object}
    (accepted : registrationAction rawPlan (.obj request) = .ok result)
    (present : result.get? "missing" = some (.bool false)) :
    ∃ plan member node metadata labels desired patch, Selected rawPlan request plan member ∧
      value request "node" = .obj node ∧ value node "metadata" = .obj metadata ∧
      valueOr metadata "labels" (.obj []) = .obj labels ∧ desiredLabels plan member = .ok desired ∧
      result.get? "labelPatch" = some (.arr patch) ∧
      (∀ document : Json, Unchanged metadata document → Unlabelled metadata document →
        ∃ after, document.applyPatch patch = some after ∧
          Relabelled desired (oppositeLabel member) document after ∧
          (∀ renewed, registrationAction rawPlan (.obj (request.set "node" after)) = .ok renewed →
            renewed.get? "labelsChanged" = some (.bool false)) ∧
          (StillPresent metadata node document →
            ∃ renewed, registrationAction rawPlan (.obj (request.set "node" after)) = .ok renewed)) ∧
      (∀ document : Json, ¬ Unchanged metadata document → document.applyPatch patch = none) ∧
      ∀ key ∈ [serverLabel, clusterLabel],
        value labels key = .null ∨ Json.Same (value labels key) (value desired key) := by
  obtain ⟨plan, member, node, selected, isNode, _, repaired⟩ := registrationAction_ok accepted present
  obtain ⟨metadata, labels, desired, patch, repair, same⟩ := repairNode_iff.mp repaired
  refine ⟨plan, member, node, metadata, labels, desired, patch, selected, isNode, repair.isMetadata, repair.labelled,
    repair.wanted, by rw [same]; rfl, ?_, fun document => patch_refuses repair.made, ?_⟩
  · intro document unchanged unlabelled
    obtain ⟨after, applied, relabelled⟩ := patch_applies repair.made (desired_distinct repair.wanted)
      (opposite_fresh repair.wanted) (opposite_plain member) unchanged unlabelled
    refine ⟨after, applied, relabelled, fun renewed => ?_, fun still => ?_⟩
    · exact renewed_settled selected repair.wanted relabelled
    · exact renewed_accepted selected repair unchanged still relabelled
  · intro key listed
    cases List.mem_cons.mp listed with
    | inl first => rw [first]; exact repair.server
    | inr second => rw [List.mem_singleton.mp second]; exact repair.cluster

/-! ### A drifted worker -/

def smallPlan : Json :=
  .obj [("uid", .str "cluster-1"), ("members", .arr [
    .obj [("uid", .str "server-1"), ("nodeName", .str "main"), ("role", .str "control-plane")],
    .obj [("uid", .str "server-2"), ("nodeName", .str "beelink"), ("role", .str "worker")]])]

def workerNode (uid : String) (labels : Object) : Json :=
  .obj [("metadata", .obj [("name", .str "beelink"), ("uid", .str uid), ("labels", .obj labels)]),
    ("status", .obj [("addresses", .arr [.obj [("type", .str "InternalIP"), ("address", .str "10.0.0.2")]])])]

def workerRequest (node : Json) : Object :=
  [("nodeName", .str "beelink"), ("serverUID", .str "server-2"), ("role", .str "worker"),
    ("address", .str "10.0.0.2"), ("node", node)]

def driftedLabels : Object := [("rack", .str "a"), (controlPlaneLabel, .str "")]

theorem label_patch_converges_drifted : ∃ patch,
    (∃ after, (workerNode "node-2" driftedLabels).applyPatch patch = some after) ∧
      (workerNode "node-3" driftedLabels).applyPatch patch = none := by
  have decided : (registrationAction smallPlan (.obj (workerRequest (workerNode "node-2" driftedLabels)))).toOption.any
      (fun result => result.get? "missing" == some (.bool false)) = true := by decide
  obtain ⟨result, found, present⟩ := (Option.any_eq_true _ _).mp decided
  have accepted : registrationAction smallPlan (.obj (workerRequest (workerNode "node-2" driftedLabels))) =
      .ok result := by
    cases outcome : registrationAction smallPlan (.obj (workerRequest (workerNode "node-2" driftedLabels))) with
    | error failure =>
        rw [outcome] at found
        cases found
    | ok settled =>
        rw [outcome] at found
        cases found
        rfl
  obtain ⟨plan, member, node, metadata, labels, desired, patch, _, isNode, isMetadata, _, _, _, applies, refuses, _⟩ :=
    label_patch_converges accepted (eq_of_beq present)
  cases isNode
  cases isMetadata
  have sameLabels : (workerNode "node-2" driftedLabels).Reads ["metadata", "labels"] (.obj driftedLabels) := by decide
  obtain ⟨after, applied, _⟩ := applies (workerNode "node-2" driftedLabels) ⟨by decide, sameLabels⟩ nofun
  exact ⟨patch, ⟨after, applied⟩, refuses _ fun same => absurd same.1 (by decide)⟩

end Homelab.KubePlan
