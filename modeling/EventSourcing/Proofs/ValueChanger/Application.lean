import EventSourcing.Proofs.Domain.Order
import EventSourcing.Proofs.Domain.Search
import EventSourcing.Proofs.Engine.Readable
import EventSourcing.Proofs.Engine.Separation

/-! The application as its definition, its registration and its wiring make it. Its domain lists two
commands and two events, all with ids of their own. Its registry holds this domain besides the system
domain, and the janitor is told of every value that is set and of nothing else. No step of the making
can fail. -/

namespace EventSourcing

variable {α σ : Type}

namespace ValueChanger

theorem normalize_uri : Uri.normalize uri = uri := by decide +kernel

theorem shortId_ne_system : textHash32 uri ≠ textHash32 systemUri := by decide +kernel

section Domain

def setValueEntry : MessageType Change := Member.entry .command uri ⟨setValueType, none⟩ 1

def clearValueEntry : MessageType Change := Member.entry .command uri ⟨clearValueType, none⟩ 1

def valueSetEntry : MessageType Change := Member.entry .event uri ⟨valueSetType, none⟩ 1

def valueClearedEntry : MessageType Change := Member.entry .event uri ⟨valueClearedType, none⟩ 1

def entries : List (MessageType Change) :=
  [setValueEntry, clearValueEntry, valueSetEntry, valueClearedEntry]

def domain : Domain Change Value where
  uri
  id := textHash uri
  shortId := textHash32 uri
  name := "valuechanger"
  version := 1
  aggregate
  catalog := .ofMembers entries

def Change.entry : Change → MessageType Change
  | .setValue _ => setValueEntry
  | .clearValue _ => clearValueEntry
  | .valueSet _ => valueSetEntry
  | .valueCleared _ => valueClearedEntry

theorem Change.mem_entries (c : Change) : c.entry ∈ entries := by
  cases c with
  | _ => simp [Change.entry, entries]

theorem apart_entries : entries.Pairwise MessageType.Apart := by
  have hdisplay : (entries.map MessageType.displayName).Nodup := by decide +kernel
  have hcanonical : (entries.map MessageType.canonicalName).Nodup := by decide +kernel
  exact (List.pairwise_map.1 hdisplay).and (List.pairwise_map.1 hcanonical)

theorem nodup_typeIds : (entries.map MessageType.typeId).Nodup := by decide +kernel

theorem compile_definition : definition.compile = .ok domain := by
  have hu : definition.resolvedUri = uri := normalize_uri
  have hn : Uri.nameAndVersion? uri = some ("valuechanger", 1) := by decide +kernel
  have hcompile : ∀ (kind : Kind) (t : PayloadType Change), t.uri = uri →
      suffix? (Text.lowercase t.name).toList = none →
      (⟨t, none⟩ : Member Change).compile kind uri = .ok (Member.entry kind uri ⟨t, none⟩ 1) := by
    intro kind t ht hs
    refine Member.compile_untagged kind ?_ hs
    rw [ht, normalize_uri]
  have hset := hcompile .command setValueType rfl (by decide +kernel)
  have hclear := hcompile .command clearValueType rfl (by decide +kernel)
  have hvalueSet := hcompile .event valueSetType rfl (by decide +kernel)
  have hcleared := hcompile .event valueClearedType rfl (by decide +kernel)
  have hcommands : [⟨setValueType, none⟩, ⟨clearValueType, none⟩].mapM (Member.compile .command uri) =
      .ok [setValueEntry, clearValueEntry] := by
    rw [List.mapM_cons, List.mapM_cons, hset, hclear]
    rfl
  have hevents : [⟨valueSetType, none⟩, ⟨valueClearedType, none⟩].mapM (Member.compile .event uri) =
      .ok [valueSetEntry, valueClearedEntry] := by
    rw [List.mapM_cons, List.mapM_cons, hvalueSet, hcleared]
    rfl
  rw [Definition.compile_eq_ok_iff_groups, hu]
  exact ⟨aggregate, _, "valuechanger", 1, _, _, rfl, rfl, hn, ⟨_, rfl, hcommands⟩,
    ⟨_, rfl, hevents⟩, apart_entries, rfl⟩

theorem compiled_domain : domain.Compiled := ⟨definition, compile_definition⟩

theorem messageType_domain (c : Change) : domain.messageType (.custom c) = some c.entry := by
  refine (compiled_domain.byOwner_eq_some_iff).2 ⟨?_, ?_, normalize_uri⟩
  · exact Catalog.mem_entries_ofMembers.2 c.mem_entries
  · cases c with
    | _ => rfl

theorem byId_domain (c : Change) : domain.catalog.byId c.entry.typeId = some c.entry := by
  rw [compiled_domain.byId_eq]
  refine find?_eq_some_of_unique ?_ ?_
  · exact List.mem_reverse.2 (Catalog.mem_entries_ofMembers.2 c.mem_entries)
  · intro t ht hid
    rw [List.mem_reverse] at ht
    exact eq_of_pairwise_ne (List.pairwise_map.1 nodup_typeIds) (Catalog.mem_entries_ofMembers.1 ht)
      c.mem_entries hid

theorem clearValue_byId :
    domain.catalog.commands.byId clearValueEntry.typeId = some clearValueEntry :=
  Option.filter_eq_some_iff.2 ⟨byId_domain (.clearValue ⟨⟩), rfl⟩

theorem nodup_events : (domain.catalog.events.all.map MessageType.typeId).Nodup := by
  have hperm : domain.catalog.entries.Perm entries := List.mergeSort_perm _ _
  have hentries : (domain.catalog.entries.map MessageType.typeId).Nodup :=
    (hperm.map _).nodup_iff.2 nodup_typeIds
  rw [show domain.catalog.events.all = domain.catalog.entries.filter _ from
    Catalog.events_all entries]
  exact hentries.sublist (List.filter_sublist.map _)

def catalog : Catalog Change where
  entries := [clearValueEntry, setValueEntry, valueClearedEntry, valueSetEntry]
  commandCount := 2
  names := Table.ofList [("ClearValue", 0), ("SetValue", 1), ("ValueCleared", 2), ("ValueSet", 3)]
  ids := Table.ofList [(clearValueEntry.typeId, 0), (setValueEntry.typeId, 1),
    (valueClearedEntry.typeId, 2), (valueSetEntry.typeId, 3)]

theorem catalog_domain : domain.catalog = catalog := by
  have hperm : entries.Perm catalog.entries :=
    (List.Perm.swap _ _ _).trans (.cons _ (.cons _ (.swap _ _ _)))
  have hsorted : catalog.entries.Pairwise fun t u => t.precedes u = true := by decide +kernel
  show Catalog.ofMembers entries = catalog
  rw [Catalog.ofMembers_eq_of_perm apart_entries hperm, Catalog.ofMembers_of_pairwise hsorted]
  rfl

/-- The domain in a form that can be evaluated. -/
theorem domain_eq : domain = { domain with catalog := catalog } := by
  rw [← catalog_domain]

end Domain

section Registry

def registry (sourceUri : String) : Registry Change Value where
  sourceUri
  sourceId := textHash sourceUri
  domains := (Table.empty.insert (textHash32 systemUri) systemDomain).insert (textHash32 uri) domain
  uris := (Table.empty.insert systemUri (textHash32 systemUri)).insert uri (textHash32 uri)

theorem build_registry (sourceUri : String) :
    Registry.build sourceUri [domain] = .ok (registry sourceUri) := by
  have hsystem : (Registry.empty sourceUri).add systemDomain =
      .ok (Registry.minimal sourceUri : Registry Change Value) :=
    Registry.add_eq_ok_iff.2 ⟨rfl, rfl, rfl⟩
  have hdomain : (Registry.minimal sourceUri).add domain = .ok (registry sourceUri) := by
    refine Registry.add_eq_ok_iff.2 ⟨?_, ?_, rfl⟩
    · unfold Registry.domain Registry.minimal
      rw [Table.get?_insert]
      exact if_neg (Ne.symm shortId_ne_system)
    · unfold Registry.minimal
      rw [Table.get?_insert]
      exact if_neg (by decide)
  unfold Registry.build
  rw [bind_eq_ok_iff]
  refine ⟨systemDomain, mapError_eq_ok_iff.2 compile_systemDefinition, ?_⟩
  rw [List.foldlM_cons, bind_eq_ok_iff]
  refine ⟨_, hsystem, ?_⟩
  rw [List.foldlM_cons, bind_eq_ok_iff]
  exact ⟨_, hdomain, rfl⟩

theorem built_registry (sourceUri : String) : (registry sourceUri).Built := by
  refine ⟨sourceUri, [domain], ?_, build_registry sourceUri⟩
  intro d hd
  rw [List.mem_singleton.1 hd]
  exact compiled_domain

theorem domain_registry (sourceUri : String) :
    (registry sourceUri).domain (textHash32 uri) = some domain := by
  unfold Registry.domain registry
  rw [Table.get?_insert, if_pos rfl]

theorem domainByUri_registry (sourceUri : String) :
    (registry sourceUri).domainByUri uri = some domain := by
  have huri : (registry sourceUri).uris.get? uri = some (textHash32 uri) := by
    unfold registry
    rw [Table.get?_insert, if_pos rfl]
  unfold Registry.domainByUri
  rw [normalize_uri, huri, Option.bind_some]
  exact domain_registry sourceUri

theorem distinctEvents_registry (sourceUri : String) : (registry sourceUri).DistinctEvents := by
  intro k d hd
  unfold Registry.domain registry at hd
  rw [Table.get?_insert] at hd
  split at hd
  · cases hd
    exact nodup_events
  · exact Registry.distinctEvents_minimal sourceUri k d hd

end Registry

section Wiring

def wiring : Wiring Change Value where
  handlers := Wiring.minimal.handlers.insert (textHash32 uri) handler
  services := [janitor]
  subscribers := Table.empty.insert ⟨textHash32 uri, valueSetEntry.typeId⟩ [0]

theorem resolve_valueSet (sourceUri : String) :
    Wiring.resolve (registry sourceUri) ⟨uri, "ValueSet"⟩ =
      .ok ⟨textHash32 uri, valueSetEntry.typeId⟩ := by
  have hname : domain.catalog.byName "ValueSet" = some valueSetEntry :=
    compiled_domain.byName_of_mem
      (Catalog.mem_entries_ofMembers.2 (Change.mem_entries (.valueSet ⟨"", ""⟩)))
  unfold Wiring.resolve
  simp only [domainByUri_registry, hname]
  rfl

theorem build_wiring (sourceUri : String) :
    Wiring.build (registry sourceUri) [.handler uri handler, .service janitor] = .ok wiring := by
  have hfree : (Wiring.minimal : Wiring Change Value).handlers.contains (textHash32 uri) = false := by
    unfold Table.contains Wiring.minimal
    rw [Table.get?_insert, if_neg (Ne.symm shortId_ne_system)]
    rfl
  have hhandler : (Wiring.minimal : Wiring Change Value).addHandler (registry sourceUri) uri handler =
      (.ok (), { wiring with services := [], subscribers := .empty }) := by
    unfold Wiring.addHandler
    rw [domainByUri_registry]
    show (if "Value" ≠ "Value" then _ else
      if (Wiring.minimal : Wiring Change Value).handlers.contains (textHash32 uri) then _ else _) = _
    rw [hfree]
    rfl
  have hservice : ({ wiring with services := [], subscribers := .empty } :
      Wiring Change Value).addService (registry sourceUri) janitor = (.ok (), wiring) := by
    have hresolve : janitor.subscriptions.mapM (Wiring.resolve (registry sourceUri)) =
        .ok [⟨textHash32 uri, valueSetEntry.typeId⟩] := by
      unfold janitor
      rw [List.mapM_cons, bind_eq_ok_iff]
      exact ⟨_, resolve_valueSet sourceUri, rfl⟩
    have hhome : ¬ ((registry sourceUri).domainByUri janitor.uri).isNone = true := by
      unfold janitor
      rw [domainByUri_registry]
      exact nofun
    unfold Wiring.addService
    rw [if_neg hhome, hresolve]
    rfl
  unfold Wiring.build
  rw [Wiring.start_of_built (built_registry sourceUri)]
  simp only [List.foldl_cons, List.foldl_nil, WiringBuilder.add, Wiring.add, hhandler, hservice]
  rfl

theorem servicesFor_wiring (event : Message) :
    wiring.servicesFor event =
      if event.domain = textHash32 uri ∧ event.typeId = valueSetEntry.typeId then [janitor]
      else [] := by
  unfold Wiring.servicesFor Wiring.subscribersOf wiring
  dsimp only
  rw [Table.get?_insert]
  by_cases h : event.domain = textHash32 uri ∧ event.typeId = valueSetEntry.typeId
  · rw [if_pos h, if_pos (by rw [h.1, h.2])]
    rfl
  · rw [if_neg h, if_neg fun h' => h ⟨(EventType.mk.inj h').1.symm, (EventType.mk.inj h').2.symm⟩]
    rfl

end Wiring

theorem engine_eq (sourceUri : String) (reportIds : Nat → Int64) :
    engine sourceUri reportIds = .ok ⟨registry sourceUri, wiring, .standard reportIds⟩ := by
  unfold engine
  rw [bind_eq_ok_iff]
  refine ⟨domain, mapError_eq_ok_iff.2 compile_definition, ?_⟩
  rw [bind_eq_ok_iff]
  refine ⟨_, mapError_eq_ok_iff.2 (build_registry sourceUri), ?_⟩
  rw [bind_eq_ok_iff]
  exact ⟨_, mapError_eq_ok_iff.2 (build_wiring sourceUri), rfl⟩

/-- What there is to know of the engine of the application. -/
structure Assembled (reportIds : Nat → Int64) (e : Engine Change Value) : Prop where
  selfContained : e.SelfContained
  confined : e.wiring.Confined
  byShortId : e.registry.domain (textHash32 uri) = some domain
  byUri : e.registry.domainByUri uri = some domain
  distinct : e.registry.DistinctEvents
  reporter : e.reporter = .standard reportIds
  wired : e.wiring.handlers.get? (textHash32 uri) = some handler
  services : ∀ event, e.wiring.servicesFor event =
    if event.domain = textHash32 uri ∧ event.typeId = valueSetEntry.typeId then [janitor] else []

theorem quiet_tidy (event : Message) (p : Payload Change) : (tidy event p).Quiet := by
  unfold tidy
  split
  · split
    · exact .done
    · split
      · exact .issue _ fun _ => .done
      · exact .panic _
  · exact .done

theorem assembled {sourceUri : String} {reportIds : Nat → Int64} {e : Engine Change Value}
    (h : engine sourceUri reportIds = .ok e) : Assembled reportIds e := by
  obtain rfl := Except.ok.inj ((engine_eq sourceUri reportIds).symm.trans h)
  have hself : Engine.SelfContained ⟨registry sourceUri, wiring, .standard reportIds⟩ := by
    refine .of_build (built_registry sourceUri) (build_wiring sourceUri) rfl ?_
    intro u h d hstep hd i
    simp only [List.mem_cons, List.not_mem_nil, or_false, WiringStep.handler.injEq,
      reduceCtorEq] at hstep
    obtain ⟨rfl, rfl⟩ := hstep
    exact plain_handler hd i
  constructor
  case selfContained => exact hself
  case confined =>
    refine ⟨hself.quiet, ?_⟩
    intro s hs event p
    rw [List.mem_singleton.1 hs]
    exact quiet_tidy event p
  case byShortId => exact domain_registry sourceUri
  case byUri => exact domainByUri_registry sourceUri
  case distinct => exact distinctEvents_registry sourceUri
  case reporter => rfl
  case wired =>
    show (Table.insert _ _ _).get? _ = _
    rw [Table.get?_insert, if_pos rfl]
  case services => exact servicesFor_wiring

end ValueChanger
end EventSourcing
