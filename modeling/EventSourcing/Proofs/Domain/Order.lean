import EventSourcing.Proofs.Domain.Lookup
import EventSourcing.ValueChanger.Domain

/-! The order of a catalog. Commands stand before events, and the entries of one kind stand in the
order of their canonical names, code point by code point. Canonical names are distinct across both
groups, so the order is strict, and there is only one way to list the members. It does not matter in
which order a definition declares them: the same domain is compiled. -/

namespace EventSourcing

variable {α σ : Type}

namespace MessageType

def codePoints (t : MessageType α) : List Nat := t.canonicalName.toList.map Char.toNat

/-- The place of an entry is before the other: a command before an event, and among entries of one
kind the one whose canonical name comes first. -/
def Before (t u : MessageType α) : Prop :=
  t.kind = .command ∧ u.kind = .event ∨ t.kind = u.kind ∧ List.Lex (· < ·) t.codePoints u.codePoints

theorem before_of_precedes {t u : MessageType α} (h : t.precedes u = true)
    (hne : t.canonicalName ≠ u.canonicalName) : t.Before u := by
  have hlex (hle : t.canonicalName ≤ u.canonicalName) :
      List.Lex (· < ·) t.codePoints u.codePoints := by
    have hlt : t.canonicalName < u.canonicalName := by
      refine Decidable.not_not.1 fun hnot => hne ?_
      exact String.le_antisymm hle (String.not_lt.1 hnot)
    exact List.map_lt (fun _ _ h => h) (String.lt_iff.1 hlt)
  unfold precedes at h
  cases ht : t.kind <;> cases hu : u.kind <;> rw [ht, hu] at h
  · exact .inr ⟨ht.trans hu.symm, hlex (of_decide_eq_true h)⟩
  · exact .inl ⟨ht, hu⟩
  · cases h
  · exact .inr ⟨ht.trans hu.symm, hlex (of_decide_eq_true h)⟩

theorem Before.asymm {t u : MessageType α} (h : t.Before u) (h' : u.Before t) : False := by
  rcases h with ⟨ht, hu⟩ | ⟨hk, hlex⟩
  · rcases h' with ⟨hu', -⟩ | ⟨hk, -⟩
    · cases hu.symm.trans hu'
    · cases ht.symm.trans (hk.symm.trans hu)
  · rcases h' with ⟨hu', ht'⟩ | ⟨-, hlex'⟩
    · cases ht'.symm.trans (hk.trans hu')
    · exact List.lt_asymm hlex hlex'

theorem Apart.symm {t u : MessageType α} (h : t.Apart u) : u.Apart t := ⟨h.1.symm, h.2.symm⟩

end MessageType

namespace Catalog

variable {members members' : List (MessageType α)}

/-- Entries that are apart stand in strict order. -/
theorem pairwise_before_ofMembers (h : members.Pairwise MessageType.Apart) :
    (ofMembers members).entries.Pairwise MessageType.Before := by
  have happart : (ofMembers members).entries.Pairwise MessageType.Apart :=
    ((List.mergeSort_perm members _).pairwise_iff MessageType.Apart.symm).2 h
  have hsorted := List.pairwise_mergeSort precedes_trans precedes_total members
  exact (hsorted.and happart).imp fun h => MessageType.before_of_precedes h.1 h.2.2

/-- There is one strict order only, so a catalog depends on which members there are and not on their
order. -/
theorem ofMembers_eq_of_perm (h : members.Pairwise MessageType.Apart)
    (hperm : members.Perm members') :
    ofMembers members = ofMembers members' := by
  have h' : members'.Pairwise MessageType.Apart := (hperm.pairwise_iff MessageType.Apart.symm).1 h
  have hentries :
      members.mergeSort MessageType.precedes = members'.mergeSort MessageType.precedes := by
    refine List.Perm.eq_of_pairwise ?_ (pairwise_before_ofMembers h)
      (pairwise_before_ofMembers h') ?_
    · intro t u _ _ htu hut
      exact (htu.asymm hut).elim
    · exact ((List.mergeSort_perm _ _).trans hperm).trans (List.mergeSort_perm _ _).symm
  unfold ofMembers
  rw [hentries]

theorem commands_all (members : List (MessageType α)) :
    (ofMembers members).commands.all = (ofMembers members).entries.filter (·.isCommand) :=
  (take_countP (pairwise_kind_ofMembers members)).1

end Catalog

namespace Group

/-- The groups differ at most in the order of their members. -/
def Reorders : Option (Group α) → Option (Group α) → Prop
  | some g, some g' => g.kind = g'.kind ∧ g.members.Perm g'.members
  | none, none => True
  | _, _ => False

theorem Compiles.reorder {kind : Kind} {uri : String} {g g' : Option (Group α)}
    {entries : List (MessageType α)} (h : Compiles kind uri g entries) (hg : Reorders g g') :
    ∃ entries', Compiles kind uri g' entries' ∧ entries.Perm entries' := by
  obtain ⟨members, hmembers, hm⟩ := h
  obtain ⟨g, hfilter, rfl⟩ := Option.map_eq_some_iff.1 hmembers
  obtain ⟨rfl, hvalid⟩ := Option.filter_eq_some_iff.1 hfilter
  cases g' with
  | none => cases hg
  | some g' =>
    obtain ⟨hkind, hperm⟩ := hg
    obtain ⟨hk, hne⟩ := of_decide_eq_true hvalid
    obtain ⟨entries', hm', hentries⟩ := exists_perm_of_mapM_eq_ok hperm hm
    refine ⟨entries', ⟨g'.members, ?_, hm'⟩, hentries⟩
    refine Option.map_eq_some_iff.2 ⟨g', Option.filter_eq_some_iff.2 ⟨rfl, decide_eq_true ?_⟩, rfl⟩
    refine ⟨hkind.symm.trans hk, ?_⟩
    intro hnil
    rw [hnil] at hperm
    exact hne hperm.eq_nil

theorem Compiles.filter_append {uri : String} {g g' : Option (Group α)}
    {commands events : List (MessageType α)} (hc : Compiles .command uri g commands)
    (he : Compiles .event uri g' events) :
    (commands ++ events).filter (·.isCommand) = commands ∧
      (commands ++ events).filter (!·.isCommand) = events := by
  have hcommand : ∀ t ∈ commands, t.isCommand = true := by
    intro t ht
    rw [MessageType.isCommand, hc.kind_eq ht]
    rfl
  have hevent : ∀ t ∈ events, t.isCommand = false := by
    intro t ht
    rw [MessageType.isCommand, he.kind_eq ht]
    rfl
  constructor
  · rw [List.filter_append, List.filter_eq_self.2 hcommand, List.filter_eq_nil_iff.2,
      List.append_nil]
    intro t ht
    simp [hevent t ht]
  · rw [List.filter_append, List.filter_eq_nil_iff.2, List.nil_append, List.filter_eq_self.2]
    · intro t ht
      simp [hevent t ht]
    · intro t ht
      simp [hcommand t ht]

end Group

namespace Definition

/-- The definitions differ at most in the order in which they declare the members of a group. -/
structure Reorders (d d' : Definition α σ) : Prop where
  location : d'.location = d.location
  uri : d'.uri = d.uri
  aggregate : d'.aggregate = d.aggregate
  commands : Group.Reorders d.commands d'.commands
  events : Group.Reorders d.events d'.events

theorem Reorders.resolvedUri {d d' : Definition α σ} (h : d.Reorders d') :
    d'.resolvedUri = d.resolvedUri := by
  unfold Definition.resolvedUri
  rw [h.uri, h.location]

/-- A catalog lists the entries of both groups, none lost and none twice, in one strict order, and its
views list those of one group. Another order of declaration leads to the same domain, and so to the
same answers of all lookups. -/
theorem catalog_lists_groups_in_order (d : Definition α σ) (x : Domain α σ)
    (h : d.compile = .ok x) :
    (∃ commands events,
        Group.Compiles .command x.uri d.commands commands ∧
        Group.Compiles .event x.uri d.events events ∧
        x.catalog.entries.Perm (commands ++ events) ∧
        x.catalog.commands.all.Perm commands ∧ x.catalog.events.all.Perm events) ∧
      x.catalog.entries.Pairwise MessageType.Before ∧
      ∀ d' : Definition α σ, d.Reorders d' → d'.compile = .ok x := by
  obtain ⟨aggregate, state, name, version, commands, events, ha, hs, hn, hc, he, hapart, rfl⟩ :=
    compile_eq_ok_iff_groups.1 h
  have hperm := List.mergeSort_perm (commands ++ events) MessageType.precedes
  have hgroups := Group.Compiles.filter_append hc he
  refine ⟨⟨commands, events, hc, he, hperm, ?_, ?_⟩, Catalog.pairwise_before_ofMembers hapart, ?_⟩
  · rw [Catalog.commands_all]
    exact (hperm.filter _).trans (.of_eq hgroups.1)
  · rw [Catalog.events_all]
    exact (hperm.filter _).trans (.of_eq hgroups.2)
  · intro d' hd'
    obtain ⟨commands', hc', hcommands⟩ := hc.reorder hd'.commands
    obtain ⟨events', he', hevents⟩ := he.reorder hd'.events
    have hall : (commands ++ events).Perm (commands' ++ events') := hcommands.append hevents
    rw [← hd'.resolvedUri] at hn hc' he' ⊢
    refine compile_eq_ok_iff_groups.2 ⟨aggregate, state, name, version, commands', events',
      hd'.aggregate.trans ha, hs, hn, hc', he', ?_, ?_⟩
    · exact (hall.pairwise_iff MessageType.Apart.symm).1 hapart
    · rw [Catalog.ofMembers_eq_of_perm hapart hall]

/-- The domain of the value changer, declared with both groups the other way round. -/
theorem catalog_lists_groups_in_order_valueChanger :
    let d := ValueChanger.definition
    let d' : Definition ValueChanger.Change ValueChanger.Value := { d with
      commands :=
        some ⟨.command, [⟨ValueChanger.clearValueType, none⟩, ⟨ValueChanger.setValueType, none⟩]⟩
      events :=
        some ⟨.event, [⟨ValueChanger.valueClearedType, none⟩, ⟨ValueChanger.valueSetType, none⟩]⟩ }
    ∃ x, d.compile = .ok x ∧ d.Reorders d' ∧ x.catalog.entries.Pairwise MessageType.Before ∧
      d'.compile = .ok x := by
  intro d d'
  have hcompiles : d.compile.isOk = true := by decide +kernel
  have hd : d.Reorders d' := ⟨rfl, rfl, rfl, ⟨rfl, .swap _ _ _⟩, ⟨rfl, .swap _ _ _⟩⟩
  cases hx : d.compile with
  | ok x =>
    obtain ⟨-, hsorted, hreordered⟩ := catalog_lists_groups_in_order d x hx
    exact ⟨x, rfl, hd, hsorted, hreordered d' hd⟩
  | error error =>
    rw [hx] at hcompiles
    cases hcompiles

end Definition
end EventSourcing
