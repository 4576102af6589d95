import EventSourcing.Domain.Definition
import EventSourcing.Proofs.Fault
import EventSourcing.Proofs.Message.TypeId

/-! The entries of a compiled domain. They are the compiled members of the definition, gathered one
after the other as long as their names are apart, and the packed id of an entry tells its kind. What an
index of a catalog finds is an entry of it. -/

namespace EventSourcing

variable {α σ : Type}

namespace Catalog

theorem mem_entries_of_byName {c : Catalog α} {name : String} {t : MessageType α}
    (h : c.byName name = some t) : t ∈ c.entries := by
  obtain ⟨i, _, hi⟩ := Option.bind_eq_some_iff.1 h
  exact List.mem_of_getElem? hi

theorem mem_entries_of_byId {c : Catalog α} {id : TypeId} {t : MessageType α}
    (h : c.byId id = some t) : t ∈ c.entries := by
  obtain ⟨i, _, hi⟩ := Option.bind_eq_some_iff.1 h
  exact List.mem_of_getElem? hi

theorem mem_entries_of_byInstance [Content α] {c : Catalog α} {p : Payload α} {t : MessageType α}
    (h : c.byInstance p = some t) : t ∈ c.entries :=
  mem_entries_of_byName (Option.filter_eq_some_iff.1 h).1

theorem mem_entries_ofMembers {members : List (MessageType α)} {t : MessageType α} :
    t ∈ (ofMembers members).entries ↔ t ∈ members :=
  List.mem_mergeSort

end Catalog

theorem MessageType.extract_eq_ok {t : MessageType α} {m : Message} {p : Payload α}
    (ht : m.typeId = t.typeId) (hdata : m.data ≠ []) (hp : t.decoder m.data = .ok p) :
    t.extract m = .ok p := by
  unfold extract decode Decoder.run
  rw [if_neg (Decidable.not_not.2 ht), hp, List.isEmpty_eq_false_iff.2 hdata]
  rfl

/-- Two entries that may stand in one catalog. -/
def MessageType.Apart (t u : MessageType α) : Prop :=
  t.displayName ≠ u.displayName ∧ t.canonicalName ≠ u.canonicalName

namespace Member

def entry (kind : Kind) (uri : String) (m : Member α) (version : UInt8) : MessageType α where
  domainId := textHash uri
  domainUri := uri
  kind
  typeId := typeIdOf kind (Text.lowercase m.type.name) version
  displayName := m.type.name
  lowerName := Text.lowercase m.type.name
  canonicalName := canonicalName (Text.lowercase m.type.name) version
  version
  id := textHash (canonicalName (Text.lowercase m.type.name) version)
  decoder := m.type.decode

theorem compile_eq_ok_iff {kind : Kind} {uri : String} {m : Member α} {t : MessageType α} :
    m.compile kind uri = .ok t ↔
      Uri.normalize m.type.uri = uri ∧
        ∃ v, m.version (Text.lowercase m.type.name) = .ok v ∧ t = m.entry kind uri v := by
  unfold compile
  dsimp only
  rw [bind_eq_ok_iff]
  refine ⟨?_, ?_⟩
  · rintro ⟨v, hv, h⟩
    split at h
    · cases h
    · next hu =>
      cases h
      exact ⟨Decidable.not_not.1 hu, v, hv, rfl⟩
  · rintro ⟨rfl, v, hv, rfl⟩
    refine ⟨v, hv, ?_⟩
    rw [if_neg (Decidable.not_not.2 rfl)]
    rfl

theorem compile_untagged (kind : Kind) {uri : String} {t : PayloadType α}
    (hu : Uri.normalize t.uri = uri) (hs : suffix? (Text.lowercase t.name).toList = none) :
    (⟨t, none⟩ : Member α).compile kind uri = .ok (Member.entry kind uri ⟨t, none⟩ 1) := by
  refine Member.compile_eq_ok_iff.2 ⟨hu, 1, ?_, rfl⟩
  simp only [Member.version, hs]

theorem kind_of_compile {kind : Kind} {uri : String} {m : Member α} {t : MessageType α}
    (h : m.compile kind uri = .ok t) : t.kind = kind := by
  obtain ⟨-, v, -, rfl⟩ := compile_eq_ok_iff.1 h
  rfl

theorem compileOnto_eq_ok_iff {kind : Kind} {uri : String} {m : Member α}
    {entries entries' : List (MessageType α)} :
    m.compileOnto kind uri entries = .ok entries' ↔
      ∃ t, m.compile kind uri = .ok t ∧ (∀ e ∈ entries, e.Apart t) ∧ entries' = entries ++ [t] := by
  unfold compileOnto
  rw [bind_eq_ok_iff]
  refine exists_congr fun t => and_congr_right fun _ => ?_
  split
  · next h =>
    rw [List.any_eq_true] at h
    obtain ⟨e, he, hsame⟩ := h
    simp only [Bool.decide_or, Bool.or_eq_true, decide_eq_true_eq] at hsame
    refine ⟨?_, ?_⟩
    · intro h
      cases h
    · rintro ⟨h, -⟩
      rcases hsame with hsame | hsame
      · exact absurd hsame (h e he).1
      · exact absurd hsame (h e he).2
  · next h =>
    simp only [List.any_eq_true, Bool.decide_or, Bool.or_eq_true, decide_eq_true_eq, not_exists,
      not_and, not_or] at h
    refine ⟨?_, ?_⟩
    · intro hok
      cases hok
      exact ⟨h, rfl⟩
    · rintro ⟨-, rfl⟩
      rfl

/-- A group is gathered just when all members compile, to entries apart from each other and from
those gathered before. -/
theorem foldlM_compileOnto_eq_ok_iff {kind : Kind} {uri : String}
    {members : List (Member α)} {entries entries' : List (MessageType α)} :
    members.foldlM (compileOnto kind uri) entries = .ok entries' ↔
      ∃ added, members.mapM (compile kind uri) = .ok added ∧ added.Pairwise MessageType.Apart ∧
        (∀ e ∈ entries, ∀ t ∈ added, e.Apart t) ∧ entries' = entries ++ added := by
  induction members generalizing entries with
  | nil => simp [pure, Except.pure, eq_comm]
  | cons m rest ih =>
    rw [List.foldlM_cons, bind_eq_ok_iff]
    refine ⟨?_, ?_⟩
    · rintro ⟨mid, hmid, h⟩
      obtain ⟨t, ht, hapart, rfl⟩ := compileOnto_eq_ok_iff.1 hmid
      obtain ⟨added, hadded, hpair, hold, rfl⟩ := ih.1 h
      refine ⟨t :: added, ?_, ?_, ?_, by simp⟩
      · rw [List.mapM_cons, ht, hadded]
        rfl
      · exact List.pairwise_cons.2 ⟨hold t (by simp), hpair⟩
      · intro e he u hu
        rcases List.mem_cons.1 hu with rfl | hu
        · exact hapart e he
        · exact hold e (List.mem_append_left _ he) u hu
    · rintro ⟨added, hadded, hpair, hold, rfl⟩
      rw [List.mapM_cons] at hadded
      obtain ⟨t, ht, hadded⟩ := bind_eq_ok_iff.1 hadded
      obtain ⟨tail, htail, hadded⟩ := bind_eq_ok_iff.1 hadded
      cases hadded
      obtain ⟨hfirst, hpair⟩ := List.pairwise_cons.1 hpair
      have hmid : m.compileOnto kind uri entries = .ok (entries ++ [t]) :=
        compileOnto_eq_ok_iff.2 ⟨t, ht, fun e he => hold e he t List.mem_cons_self, rfl⟩
      refine ⟨_, hmid, ih.2 ⟨tail, htail, hpair, ?_, by simp⟩⟩
      intro e he u hu
      rcases List.mem_append.1 he with he | he
      · exact hold e he u (List.mem_cons_of_mem t hu)
      · rw [List.mem_singleton.1 he]
        exact hfirst u hu

end Member

theorem Definition.compile_eq_ok_iff {definition : Definition α σ} {d : Domain α σ} :
    definition.compile = .ok d ↔
      ∃ aggregate state name version commands events compiled entries,
        definition.aggregate = some aggregate ∧
        aggregate.encode aggregate.initial = .ok state ∧
        Uri.nameAndVersion? definition.resolvedUri = some (name, version) ∧
        Group.members? .command definition.commands = some commands ∧
        Group.members? .event definition.events = some events ∧
        commands.foldlM (Member.compileOnto .command definition.resolvedUri) [] = .ok compiled ∧
        events.foldlM (Member.compileOnto .event definition.resolvedUri) compiled = .ok entries ∧
        d = {
          uri := definition.resolvedUri
          id := textHash definition.resolvedUri
          shortId := textHash32 definition.resolvedUri
          name
          version
          aggregate
          catalog := .ofMembers entries } := by
  refine ⟨?_, ?_⟩
  · intro h
    unfold compile at h
    dsimp only at h
    split at h
    case h_2 => cases h
    next aggregate ha =>
    split at h
    case h_1 => cases h
    next state hs =>
    split at h
    case h_2 => cases h
    next name version hu =>
    split at h
    case h_2 => cases h
    next commands hc =>
    split at h
    case h_2 => cases h
    next events he =>
    obtain ⟨compiled, h₁, h⟩ := bind_eq_ok_iff.1 h
    obtain ⟨entries, h₂, h⟩ := bind_eq_ok_iff.1 h
    cases h
    exact ⟨aggregate, state, name, version, commands, events, compiled, entries, ha, hs, hu, hc, he,
      h₁, h₂, rfl⟩
  · rintro ⟨aggregate, state, name, version, commands, events, compiled, entries, ha, hs, hu, hc, he,
      h₁, h₂, rfl⟩
    unfold compile
    simp only [ha, hs, hu, hc, he, h₁, h₂, bind, Except.bind, pure, Except.pure]

namespace Group

/-- The group is given, of the right kind and not empty, and these are the entries of its members, in
the order of their declaration. -/
def Compiles (kind : Kind) (uri : String) (g : Option (Group α)) (entries : List (MessageType α)) :
    Prop :=
  ∃ members, members? kind g = some members ∧ members.mapM (Member.compile kind uri) = .ok entries

theorem Compiles.kind_eq {kind : Kind} {uri : String} {g : Option (Group α)}
    {entries : List (MessageType α)} (h : Compiles kind uri g entries) {t : MessageType α}
    (ht : t ∈ entries) : t.kind = kind := by
  obtain ⟨members, -, hm⟩ := h
  obtain ⟨m, -, hmt⟩ := (images_of_mapM_eq_ok hm).2 t ht
  exact m.kind_of_compile hmt

end Group

/-- A definition compiles just when both groups do, to entries that are apart, and the rest of it is
valid. -/
theorem Definition.compile_eq_ok_iff_groups {d : Definition α σ} {x : Domain α σ} :
    d.compile = .ok x ↔
      ∃ aggregate state name version commands events,
        d.aggregate = some aggregate ∧
        aggregate.encode aggregate.initial = .ok state ∧
        Uri.nameAndVersion? d.resolvedUri = some (name, version) ∧
        Group.Compiles .command d.resolvedUri d.commands commands ∧
        Group.Compiles .event d.resolvedUri d.events events ∧
        (commands ++ events).Pairwise MessageType.Apart ∧
        x = {
          uri := d.resolvedUri
          id := textHash d.resolvedUri
          shortId := textHash32 d.resolvedUri
          name
          version
          aggregate
          catalog := .ofMembers (commands ++ events) } := by
  rw [compile_eq_ok_iff]
  refine ⟨?_, ?_⟩
  · rintro ⟨aggregate, state, name, version, commands, events, first, _, ha, hs, hn, hc, he, h₁, h₂,
      rfl⟩
    obtain ⟨_, hfirst, hpair, -, rfl⟩ := Member.foldlM_compileOnto_eq_ok_iff.1 h₁
    obtain ⟨second, hsecond, hpair', hold, rfl⟩ := Member.foldlM_compileOnto_eq_ok_iff.1 h₂
    exact ⟨aggregate, state, name, version, first, second, ha, hs, hn, ⟨commands, hc, hfirst⟩,
      ⟨events, he, hsecond⟩, List.pairwise_append.2 ⟨hpair, hpair', hold⟩, rfl⟩
  · rintro ⟨aggregate, state, name, version, first, second, ha, hs, hn, ⟨commands, hc, hfirst⟩,
      ⟨events, he, hsecond⟩, hpair, rfl⟩
    obtain ⟨hpair, hpair', hold⟩ := List.pairwise_append.1 hpair
    refine ⟨aggregate, state, name, version, commands, events, first, first ++ second, ha, hs, hn, hc,
      he, ?_, ?_, rfl⟩
    · exact Member.foldlM_compileOnto_eq_ok_iff.2 ⟨first, hfirst, hpair, nofun, rfl⟩
    · exact Member.foldlM_compileOnto_eq_ok_iff.2 ⟨second, hsecond, hpair', hold, rfl⟩

def Domain.Compiled (d : Domain α σ) : Prop := ∃ definition : Definition α σ, definition.compile = .ok d

theorem Domain.Compiled.exists_member {d : Domain α σ} (h : d.Compiled) {t : MessageType α}
    (ht : t ∈ d.catalog.entries) : ∃ m : Member α, m.compile t.kind d.uri = .ok t := by
  obtain ⟨definition, h⟩ := h
  obtain ⟨_, _, _, _, commands, events, -, -, -, hc, he, -, rfl⟩ :=
    Definition.compile_eq_ok_iff_groups.1 h
  rw [Catalog.mem_entries_ofMembers, List.mem_append] at ht
  rcases ht with ht | ht
  · rw [hc.kind_eq ht]
    obtain ⟨_, -, hm⟩ := hc
    obtain ⟨m, -, hmt⟩ := (images_of_mapM_eq_ok hm).2 t ht
    exact ⟨m, hmt⟩
  · rw [he.kind_eq ht]
    obtain ⟨_, -, hm⟩ := he
    obtain ⟨m, -, hmt⟩ := (images_of_mapM_eq_ok hm).2 t ht
    exact ⟨m, hmt⟩

/-- The packed id of an entry tells its kind. -/
theorem Domain.Compiled.kind_typeId {d : Domain α σ} (h : d.Compiled) {t : MessageType α}
    (ht : t ∈ d.catalog.entries) : t.typeId.kind = t.kind := by
  obtain ⟨m, hm⟩ := h.exists_member ht
  obtain ⟨-, v, -, he⟩ := Member.compile_eq_ok_iff.1 hm
  rw [he]
  exact TypeId.kind_pack _ _ _

end EventSourcing
