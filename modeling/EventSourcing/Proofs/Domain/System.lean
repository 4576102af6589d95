import EventSourcing.Proofs.Domain.Registered

/-! The system domain, which every registry holds, in its compiled form. -/

namespace EventSourcing

variable {α σ : Type}

theorem normalize_systemUri : Uri.normalize systemUri = systemUri := by decide +kernel

def raiseErrorEntry : MessageType α := Member.entry .command systemUri ⟨.raiseError, none⟩ 1

def errorRaisedEntry : MessageType α := Member.entry .event systemUri ⟨.errorRaised, none⟩ 1

def systemDomain : Domain α σ where
  uri := systemUri
  id := textHash systemUri
  shortId := textHash32 systemUri
  name := "system"
  version := 1
  aggregate := .errorLog
  catalog := .ofMembers [raiseErrorEntry, errorRaisedEntry]

theorem compile_raiseError :
    (⟨.raiseError, none⟩ : Member α).compile .command systemUri = .ok raiseErrorEntry := by
  have hs : suffix? (Text.lowercase "RaiseError").toList = none := by decide +kernel
  exact Member.compile_untagged .command normalize_systemUri hs

theorem compile_errorRaised :
    (⟨.errorRaised, none⟩ : Member α).compile .event systemUri = .ok errorRaisedEntry := by
  have hs : suffix? (Text.lowercase "ErrorRaised").toList = none := by decide +kernel
  exact Member.compile_untagged .event normalize_systemUri hs

theorem compile_systemDefinition : (systemDefinition : Definition α σ).compile = .ok systemDomain := by
  have hu : (systemDefinition : Definition α σ).resolvedUri = systemUri := normalize_systemUri
  have hn : Uri.nameAndVersion? systemUri = some ("system", 1) := by decide +kernel
  have hc : [⟨.raiseError, none⟩].foldlM (Member.compileOnto .command systemUri) [] =
      .ok [(raiseErrorEntry : MessageType α)] := by
    rw [List.foldlM_cons, bind_eq_ok_iff]
    refine ⟨_, Member.compileOnto_eq_ok_iff.2 ⟨_, compile_raiseError, ?_, rfl⟩, rfl⟩
    exact fun e he => nomatch he
  have he : [⟨.errorRaised, none⟩].foldlM (Member.compileOnto .event systemUri)
      [(raiseErrorEntry : MessageType α)] = .ok [raiseErrorEntry, errorRaisedEntry] := by
    rw [List.foldlM_cons, bind_eq_ok_iff]
    refine ⟨_, Member.compileOnto_eq_ok_iff.2 ⟨_, compile_errorRaised, ?_, rfl⟩, rfl⟩
    intro e he
    rw [List.mem_singleton] at he
    rw [he]
    refine ⟨?_, ?_⟩
    · show "RaiseError" ≠ "ErrorRaised"
      decide
    · show canonicalName (Text.lowercase "RaiseError") 1 ≠
        canonicalName (Text.lowercase "ErrorRaised") 1
      decide +kernel
  rw [Definition.compile_eq_ok_iff, hu]
  exact ⟨.errorLog, _, "system", 1, _, _, _, _, rfl, rfl, hn, rfl, rfl, hc, he, rfl⟩

theorem Catalog.ofMembers_of_pairwise {members : List (MessageType α)}
    (h : members.Pairwise fun t u => t.precedes u = true) :
    Catalog.ofMembers members = {
      entries := members
      commandCount := members.countP MessageType.isCommand
      names := Table.ofList (members.zipIdx.map fun (t, i) => (t.displayName, i))
      ids := Table.ofList (members.zipIdx.map fun (t, i) => (t.typeId, i)) } := by
  unfold Catalog.ofMembers
  rw [List.mergeSort_of_pairwise h]

/-- The catalog of the system domain, which lists the command before the event. -/
def systemCatalog : Catalog α where
  entries := [raiseErrorEntry, errorRaisedEntry]
  commandCount := 1
  names := Table.ofList [("RaiseError", 0), ("ErrorRaised", 1)]
  ids := Table.ofList
    [((raiseErrorEntry : MessageType α).typeId, 0),
      ((errorRaisedEntry : MessageType α).typeId, 1)]

theorem catalog_systemDomain : (systemDomain : Domain α σ).catalog = systemCatalog := by
  have h : [(raiseErrorEntry : MessageType α), errorRaisedEntry].Pairwise
      fun t u => t.precedes u = true := by
    simp [MessageType.precedes, raiseErrorEntry, errorRaisedEntry, Member.entry]
  unfold systemDomain
  rw [Catalog.ofMembers_of_pairwise h]
  rfl

/-- The system domain in a form that can be evaluated, with its catalog sorted. -/
theorem systemDomain_eq :
    (systemDomain : Domain α σ) = { (systemDomain : Domain α σ) with catalog := systemCatalog } := by
  rw [← catalog_systemDomain (σ := σ)]

theorem byName_errorRaised :
    (systemDomain : Domain α σ).catalog.byName "ErrorRaised" = some errorRaisedEntry := by
  rw [catalog_systemDomain]
  rfl

theorem typeId_raiseErrorEntry_ne :
    (raiseErrorEntry : MessageType α).typeId ≠ (errorRaisedEntry : MessageType α).typeId := by
  intro h
  have hk := congrArg TypeId.kind h
  unfold raiseErrorEntry errorRaisedEntry Member.entry typeIdOf at hk
  rw [TypeId.kind_pack, TypeId.kind_pack] at hk
  cases hk

theorem byId_raiseError :
    (systemDomain : Domain α σ).catalog.commands.byId (raiseErrorEntry : MessageType α).typeId =
      some raiseErrorEntry := by
  have hi : (Table.ofList
      [((raiseErrorEntry : MessageType α).typeId, 0),
        ((errorRaisedEntry : MessageType α).typeId, 1)]).get? (raiseErrorEntry : MessageType α).typeId =
      some 0 := by
    unfold Table.ofList
    rw [List.foldl_cons, List.foldl_cons, List.foldl_nil, Table.get?_insert, Table.get?_insert,
      if_neg (Ne.symm typeId_raiseErrorEntry_ne), if_pos rfl]
  unfold Catalog.commands Catalog.View.byId Catalog.View.keep Catalog.byId
  rw [catalog_systemDomain]
  unfold systemCatalog
  dsimp only
  rw [hi]
  rfl

theorem messageType_errorRaised [Content α] (e : ErrorRaised) :
    (systemDomain : Domain α σ).messageType (.errorRaised e) = some errorRaisedEntry := by
  unfold Domain.messageType Catalog.byInstance Catalog.byOwner
  exact Option.filter_eq_some_iff.2 ⟨byName_errorRaised, decide_eq_true normalize_systemUri⟩

namespace Registry

def minimal (sourceUri : String) : Registry α σ where
  sourceUri
  sourceId := textHash sourceUri
  domains := Table.empty.insert (textHash32 systemUri) systemDomain
  uris := Table.empty.insert systemUri (textHash32 systemUri)

theorem build_nil (sourceUri : String) :
    build sourceUri [] = .ok (minimal sourceUri : Registry α σ) := by
  have ha : (empty sourceUri).add systemDomain = .ok (minimal sourceUri : Registry α σ) :=
    add_eq_ok_iff.2 ⟨rfl, rfl, rfl⟩
  unfold build
  rw [bind_eq_ok_iff]
  refine ⟨systemDomain, mapError_eq_ok_iff.2 compile_systemDefinition, ?_⟩
  rw [List.foldlM_cons, bind_eq_ok_iff]
  exact ⟨_, ha, rfl⟩

theorem built_minimal (sourceUri : String) : (minimal sourceUri : Registry α σ).Built :=
  ⟨sourceUri, [], fun _ hd => absurd hd List.not_mem_nil, build_nil sourceUri⟩

theorem domain_minimal (sourceUri : String) :
    (minimal sourceUri : Registry α σ).domain (textHash32 systemUri) = some systemDomain := by
  unfold domain minimal
  rw [Table.get?_insert, if_pos rfl]

theorem domainByUri_minimal (sourceUri : String) :
    (minimal sourceUri : Registry α σ).domainByUri systemUri = some systemDomain := by
  have hu : (minimal sourceUri : Registry α σ).uris.get? systemUri = some (textHash32 systemUri) := by
    unfold minimal
    rw [Table.get?_insert, if_pos rfl]
  unfold domainByUri
  rw [normalize_systemUri, hu, Option.bind_some]
  exact domain_minimal sourceUri

theorem domainByUri_add {r r' : Registry α σ} {d x : Domain α σ} {uri : String}
    (h : r.add d = .ok r') (hx : r.domainByUri uri = some x) : r'.domainByUri uri = some x := by
  obtain ⟨hid, huri, rfl⟩ := add_eq_ok_iff.1 h
  obtain ⟨k, hk, hd⟩ := Option.bind_eq_some_iff.1 hx
  have hne : d.uri ≠ Uri.normalize uri := by
    intro he
    simp [← he, huri] at hk
  have hkne : d.shortId ≠ k := by
    rintro rfl
    simp [domain, hd] at hid
  simp [domainByUri, Table.get?_insert, hne, hk, hkne, hd]

theorem domainByUri_foldlM_add {r r' : Registry α σ} {domains : List (Domain α σ)}
    {x : Domain α σ} {uri : String} (h : domains.foldlM add r = .ok r')
    (hx : r.domainByUri uri = some x) : r'.domainByUri uri = some x := by
  induction domains generalizing r with
  | nil =>
    cases h
    exact hx
  | cons d rest ih =>
    rw [List.foldlM_cons] at h
    obtain ⟨mid, hmid, h⟩ := bind_eq_ok_iff.1 h
    exact ih h (domainByUri_add hmid hx)

theorem Built.domainByUri_system {r : Registry α σ} (h : r.Built) :
    r.domainByUri systemUri = some systemDomain := by
  obtain ⟨source, domains, -, h⟩ := h
  obtain ⟨system, hs, h⟩ := bind_eq_ok_iff.1 h
  rw [mapError_eq_ok_iff, compile_systemDefinition] at hs
  cases hs
  rw [List.foldlM_cons] at h
  obtain ⟨mid, hmid, h⟩ := bind_eq_ok_iff.1 h
  have hm : mid = minimal source :=
    Except.ok.inj (hmid.symm.trans (add_eq_ok_iff.2 ⟨rfl, rfl, rfl⟩))
  rw [hm] at h
  exact domainByUri_foldlM_add h (domainByUri_minimal source)

end Registry

end EventSourcing
