import EventSourcing.Proofs.Domain.Order
import EventSourcing.Proofs.Domain.System
import EventSourcing.ValueChanger.Domain

/-! The lookups of a catalog and the list that they are about. An index holds places in the sorted
list, and a view holds back what is of the other kind. In a compiled domain both come to the same as
searching the list that is shown: the whole catalog, or the part of one kind. For names this is so
because they are distinct, and for ids because an id tells the kind of its entry. -/

namespace EventSourcing

variable {α σ : Type}

/-- Where the key decides about the property, it does not matter whether a search for the key comes
before or after the elements without the property are dropped. -/
theorem find?_filter_of_decided {τ κ : Type} [DecidableEq κ] {key : τ → κ} {p : τ → Bool}
    {l : List τ} {k : κ} (h : ∀ a ∈ l, ∀ b ∈ l, key a = k → key b = k → p a = p b) :
    (l.filter p).find? (key · = k) = (l.find? (key · = k)).filter p := by
  induction l with
  | nil => rfl
  | cons a rest ih =>
    have hrest := ih fun x hx y hy =>
      h x (List.mem_cons_of_mem a hx) y (List.mem_cons_of_mem a hy)
    by_cases hkey : key a = k
    · cases hp : p a with
      | true => simp [hp, hkey, Option.filter_some]
      | false =>
        -- What else has the key lacks the property as well.
        have hnone : (rest.filter p).find? (key · = k) = none := by
          rw [List.find?_eq_none]
          intro b hb
          obtain ⟨hb, hpb⟩ := List.mem_filter.1 hb
          intro hkb
          have hab := h a List.mem_cons_self b (List.mem_cons_of_mem a hb) hkey (of_decide_eq_true hkb)
          rw [hp, hpb] at hab
          cases hab
        simp [hp, hkey, hnone, Option.filter_some]
    · cases hp : p a with
      | true => simp [hp, hkey, hrest]
      | false => simp [hp, hkey, hrest]

namespace Catalog

/-- The lookups answer as a search of the listed entries does: by id the last entry with the id, and by
a payload or its type the entry of this name, if `uri` is the normal form of the declared one. -/
structure Searches [Content α] (listed : List (MessageType α)) (uri : String)
    (byId : TypeId → Option (MessageType α)) (byInstance : Payload α → Option (MessageType α))
    (byType : PayloadType α → Option (MessageType α)) : Prop where
  byId : ∀ id, byId id = listed.reverse.find? (·.typeId = id)
  byInstance : ∀ p t, byInstance p = some t ↔
    t ∈ listed ∧ t.displayName = p.name ∧ Uri.normalize p.uri = uri
  byType : ∀ type t, byType type = some t ↔
    t ∈ listed ∧ t.displayName = type.name ∧ Uri.normalize type.uri = uri

def view (c : Catalog α) : Kind → View α
  | .command => c.commands
  | .event => c.events

theorem kind_view (c : Catalog α) (kind : Kind) : (c.view kind).kind = kind := by
  cases kind with
  | command => rfl
  | event => rfl

theorem catalog_view (c : Catalog α) (kind : Kind) : (c.view kind).catalog = c := by
  cases kind with
  | command => rfl
  | event => rfl

theorem all_view (members : List (MessageType α)) (kind : Kind) :
    ((ofMembers members).view kind).all = (ofMembers members).entries.filter (·.kind = kind) := by
  cases kind with
  | command => exact commands_all members
  | event =>
    refine (events_all members).trans (List.filter_congr ?_)
    intro t _
    unfold MessageType.isCommand
    cases t.kind with
    | command => rfl
    | event => rfl

end Catalog

namespace Domain.Compiled

variable {d : Domain α σ} {t : MessageType α}

theorem exists_ofMembers (h : d.Compiled) : ∃ members, d.catalog = .ofMembers members := by
  obtain ⟨definition, h⟩ := h
  obtain ⟨members, hcatalog, -⟩ := definition.exists_members h
  exact ⟨members, hcatalog⟩

theorem mem_view_all (h : d.Compiled) {kind : Kind} :
    t ∈ (d.catalog.view kind).all ↔ t ∈ d.catalog.entries ∧ t.kind = kind := by
  obtain ⟨members, hcatalog⟩ := h.exists_ofMembers
  rw [hcatalog, Catalog.all_view, List.mem_filter, decide_eq_true_eq]

theorem byName_eq_some_iff (h : d.Compiled) {name : String} :
    d.catalog.byName name = some t ↔ t ∈ d.catalog.entries ∧ t.displayName = name := by
  refine ⟨?_, ?_⟩
  · intro hfound
    refine ⟨Catalog.mem_entries_of_byName hfound, ?_⟩
    obtain ⟨members, hcatalog⟩ := h.exists_ofMembers
    rw [hcatalog, Catalog.byName_ofMembers] at hfound
    simpa using List.find?_some hfound
  · rintro ⟨ht, rfl⟩
    exact h.byName_of_mem ht

theorem domainUri_of_mem (h : d.Compiled) (ht : t ∈ d.catalog.entries) : t.domainUri = d.uri := by
  obtain ⟨m, hm⟩ := h.exists_member ht
  obtain ⟨-, v, -, he⟩ := Member.compile_eq_ok_iff.1 hm
  rw [he]
  rfl

theorem byOwner_eq_some_iff (h : d.Compiled) {name uri : String} :
    d.catalog.byOwner name uri = some t ↔
      t ∈ d.catalog.entries ∧ t.displayName = name ∧ Uri.normalize uri = d.uri := by
  unfold Catalog.byOwner
  rw [Option.filter_eq_some_iff, h.byName_eq_some_iff, decide_eq_true_eq, and_assoc]
  refine and_congr_right fun ht => ?_
  rw [h.domainUri_of_mem ht]

theorem byId_eq (h : d.Compiled) (id : TypeId) :
    d.catalog.byId id = d.catalog.entries.reverse.find? (·.typeId = id) := by
  obtain ⟨members, hcatalog⟩ := h.exists_ofMembers
  rw [hcatalog, Catalog.byId_ofMembers]

/-- All entries with one id are of one kind, so a view may look among its own. -/
theorem view_byId_eq (h : d.Compiled) (kind : Kind) (id : TypeId) :
    (d.catalog.view kind).byId id = (d.catalog.view kind).all.reverse.find? (·.typeId = id) := by
  have hkinds : ∀ t ∈ d.catalog.entries.reverse, ∀ u ∈ d.catalog.entries.reverse,
      t.typeId = id → u.typeId = id → decide (t.kind = kind) = decide (u.kind = kind) := by
    intro t ht u hu htid huid
    rw [List.mem_reverse] at ht hu
    rw [← h.kind_typeId ht, ← h.kind_typeId hu, htid, huid]
  unfold Catalog.View.byId Catalog.View.keep
  rw [Catalog.catalog_view, Catalog.kind_view, h.byId_eq, ← find?_filter_of_decided hkinds]
  obtain ⟨members, hcatalog⟩ := h.exists_ofMembers
  rw [hcatalog, Catalog.all_view, List.filter_reverse]

theorem view_byOwner_eq_some_iff (h : d.Compiled) {kind : Kind} {name uri : String} :
    (d.catalog.view kind).keep (d.catalog.byOwner name uri) = some t ↔
      t ∈ (d.catalog.view kind).all ∧ t.displayName = name ∧ Uri.normalize uri = d.uri := by
  unfold Catalog.View.keep
  rw [Catalog.kind_view, Option.filter_eq_some_iff, h.byOwner_eq_some_iff, h.mem_view_all,
    decide_eq_true_eq]
  refine ⟨?_, ?_⟩
  · rintro ⟨⟨ht, hname, huri⟩, hkind⟩
    exact ⟨⟨ht, hkind⟩, hname, huri⟩
  · rintro ⟨⟨ht, hkind⟩, hname, huri⟩
    exact ⟨⟨ht, hname, huri⟩, hkind⟩

end Domain.Compiled

namespace Domain

theorem messages_filter (d : Domain α σ) (kind : Kind) (ids : List TypeId) :
    (d.messages ids).filter (·.kind = kind) = ids.filterMap (d.catalog.view kind).byId := by
  unfold messages Catalog.View.byId Catalog.View.keep
  rw [List.filter_filterMap, Catalog.catalog_view, Catalog.kind_view]

/-- In a compiled domain a display name belongs to one entry at most, which is found by it. All other
lookups answer as a search of the catalog does, and those of a view as a search of what the view lists:
the entries of its kind. So the commands and the events among listed ids are those of the messages. -/
theorem lookups_search_listed_entries [Content α] (d : Domain α σ) (h : d.Compiled) :
    (∀ name t, d.catalog.byName name = some t ↔ t ∈ d.catalog.entries ∧ t.displayName = name) ∧
      Catalog.Searches d.catalog.entries d.uri d.catalog.byId d.catalog.byInstance d.catalog.byType ∧
      (∀ kind,
        (∀ t, t ∈ (d.catalog.view kind).all ↔ t ∈ d.catalog.entries ∧ t.kind = kind) ∧
        Catalog.Searches (d.catalog.view kind).all d.uri (d.catalog.view kind).byId
          (d.catalog.view kind).byInstance (d.catalog.view kind).byType) ∧
      ∀ ids, d.commands ids = (d.messages ids).filter (·.kind = .command) ∧
        d.events ids = (d.messages ids).filter (·.kind = .event) := by
  refine ⟨fun _ _ => h.byName_eq_some_iff, ?_, ?_, ?_⟩
  · exact ⟨h.byId_eq, fun _ _ => h.byOwner_eq_some_iff, fun _ _ => h.byOwner_eq_some_iff⟩
  · intro kind
    refine ⟨fun _ => h.mem_view_all, h.view_byId_eq kind, ?_, ?_⟩
    · intro p t
      unfold Catalog.View.byInstance
      rw [Catalog.catalog_view]
      exact h.view_byOwner_eq_some_iff
    · intro type t
      unfold Catalog.View.byType
      rw [Catalog.catalog_view]
      exact h.view_byOwner_eq_some_iff
  · intro ids
    exact ⟨(d.messages_filter .command ids).symm, (d.messages_filter .event ids).symm⟩

/-- In the system domain the command is among the commands and not among the events. -/
theorem lookups_search_listed_entries_raiseError :
    let d : Domain ValueChanger.Change ValueChanger.Value := systemDomain
    let id := (raiseErrorEntry : MessageType ValueChanger.Change).typeId
    d.Compiled ∧ d.commands [id] = [raiseErrorEntry] ∧ d.events [id] = [] ∧
      d.catalog.events.byId id = d.catalog.events.all.reverse.find? (·.typeId = id) := by
  intro d id
  have hd : d.Compiled := ⟨systemDefinition, compile_systemDefinition⟩
  obtain ⟨-, -, hviews, hids⟩ := lookups_search_listed_entries d hd
  have hcommands : d.commands [id] = [raiseErrorEntry] := by
    simp [commands, id, d, byId_raiseError]
  have hmessages : d.messages [id] = [raiseErrorEntry] := by
    have hfound := (Option.filter_eq_some_iff.1
      (byId_raiseError (α := ValueChanger.Change) (σ := ValueChanger.Value))).1
    have hbyId : d.catalog.byId id = some raiseErrorEntry := hfound
    simp [messages, hbyId]
  refine ⟨hd, hcommands, ?_, (hviews .event).2.byId id⟩
  rw [(hids [id]).2, hmessages]
  rfl

end Domain
end EventSourcing
