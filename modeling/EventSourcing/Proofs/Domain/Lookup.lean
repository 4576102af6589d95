import EventSourcing.Proofs.Domain.Compiled

/-! What the indexes of a catalog find. An index answers as a search through the entries from the
back would: the last entry with the key. In a compiled domain the names are distinct, so each member has
one entry, which is found by its name. The entries stand with all commands before all events, so the two
views list the entries of their kinds, and an event whose id is its own among the events is found by it:
the id of a command has another kind. -/

namespace EventSourcing

theorem Table.get?_ofList {κ ν : Type} [DecidableEq κ] (es : List (κ × ν)) (k : κ) :
    (ofList es).get? k = (es.reverse.find? (·.1 = k)).map Prod.snd := by
  have hfold : ∀ t : Table κ ν, (es.foldl (fun t e => t.insert e.1 e.2) t).get? k =
      ((es.reverse.find? (·.1 = k)).map Prod.snd).or (t.get? k) := by
    induction es with
    | nil => simp
    | cons e rest ih =>
      intro t
      rw [List.foldl_cons, ih, get?_insert, List.reverse_cons, List.find?_append, Option.map_or,
        Option.or_assoc]
      by_cases he : e.1 = k
      · simp [he]
      · simp [he]
  rw [ofList, hfold, get?_empty, Option.or_none]

section

variable {τ κ : Type}

/-- Where no element without a property stands before one with it, as many elements as have it come
first. -/
theorem take_countP {p : τ → Bool} {l : List τ} (h : l.Pairwise fun a b => p b = true → p a = true) :
    l.take (l.countP p) = l.filter p ∧ l.drop (l.countP p) = l.filter (!p ·) := by
  induction l with
  | nil => exact ⟨rfl, rfl⟩
  | cons a rest ih =>
    obtain ⟨ha, hrest⟩ := List.pairwise_cons.1 h
    by_cases hp : p a = true
    · simp [hp, ih hrest]
    · have hnone : ∀ b ∈ rest, ¬ p b = true := fun b hb hpb => hp (ha b hb hpb)
      have hall : rest.filter (!p ·) = rest := by
        simpa [List.filter_eq_self] using hnone
      have hzero : rest.countP p = 0 := List.countP_eq_zero.2 hnone
      simp [hp, hzero, hall, List.filter_eq_nil_iff.2 hnone]

theorem eq_of_pairwise_ne {f : τ → κ} {l : List τ} (h : l.Pairwise fun a b => f a ≠ f b) {a b : τ}
    (ha : a ∈ l) (hb : b ∈ l) (hab : f a = f b) : a = b := by
  induction l with
  | nil => cases ha
  | cons c rest ih =>
    obtain ⟨hc, hrest⟩ := List.pairwise_cons.1 h
    rcases List.mem_cons.1 ha with rfl | ha'
    · rcases List.mem_cons.1 hb with rfl | hb'
      · rfl
      · exact absurd hab (hc b hb')
    · rcases List.mem_cons.1 hb with rfl | hb'
      · exact absurd hab.symm (hc a ha')
      · exact ih hrest ha' hb'

variable [DecidableEq κ]

/-- A search for a key that belongs to one element alone finds this element. -/
theorem find?_eq_some_of_unique {f : τ → κ} {l : List τ} {a : τ} (ha : a ∈ l)
    (hone : ∀ b ∈ l, f b = f a → b = a) : l.find? (f · = f a) = some a := by
  cases hf : l.find? (f · = f a) with
  | none => exact absurd (List.find?_eq_none.1 hf a ha) (by simp)
  | some b =>
    have hb : f b = f a := by simpa using List.find?_some hf
    rw [hone b (List.mem_of_find?_eq_some hf) hb]

/-- The index of a list by a key answers as a search from the back does. -/
theorem get?_index (f : τ → κ) (l : List τ) (k : κ) :
    ((Table.ofList (l.zipIdx.map fun (a, i) => (f a, i))).get? k).bind (l[·]?) =
      l.reverse.find? (f · = k) := by
  have hplace : ∀ found : Option (τ × Nat), (∀ x, found = some x → l[x.2]? = some x.1) →
      (found.map Prod.snd).bind (l[·]?) = found.map Prod.fst := by
    rintro (_ | x) h
    · rfl
    · exact h x rfl
  have hfst : l.reverse = l.zipIdx.reverse.map Prod.fst := by
    rw [List.map_reverse, List.zipIdx_map_fst]
  rw [Table.get?_ofList, ← List.map_reverse, List.find?_map, Option.map_map, hfst, List.find?_map]
  refine hplace _ ?_
  intro x hx
  have hmem := List.mem_of_find?_eq_some hx
  rwa [List.mem_reverse, List.mem_zipIdx_iff_getElem?] at hmem

end

variable {α σ : Type}

namespace Catalog

theorem byName_ofMembers (members : List (MessageType α)) (name : String) :
    (ofMembers members).byName name =
      (ofMembers members).entries.reverse.find? (·.displayName = name) :=
  get?_index MessageType.displayName _ name

theorem byId_ofMembers (members : List (MessageType α)) (id : TypeId) :
    (ofMembers members).byId id = (ofMembers members).entries.reverse.find? (·.typeId = id) :=
  get?_index MessageType.typeId _ id

theorem precedes_trans (t u v : MessageType α) (htu : t.precedes u = true)
    (huv : u.precedes v = true) : t.precedes v = true := by
  unfold MessageType.precedes at htu huv ⊢
  cases ht : t.kind <;> cases hu : u.kind <;> cases hv : v.kind <;>
    simp_all only [decide_eq_true_eq, Bool.false_eq_true]
  · exact String.le_trans htu huv
  · exact String.le_trans htu huv

theorem precedes_total (t u : MessageType α) : (t.precedes u || u.precedes t) = true := by
  unfold MessageType.precedes
  cases t.kind <;> cases u.kind <;> simp [String.le_total]

/-- No event stands before a command. -/
theorem pairwise_kind_ofMembers (members : List (MessageType α)) :
    (ofMembers members).entries.Pairwise fun t u => u.isCommand = true → t.isCommand = true := by
  refine (List.pairwise_mergeSort precedes_trans precedes_total members).imp ?_
  intro t u h hu
  unfold MessageType.precedes MessageType.isCommand at *
  cases ht : t.kind <;> cases hk : u.kind <;> simp_all

theorem events_all (members : List (MessageType α)) :
    (ofMembers members).events.all = (ofMembers members).entries.filter (!·.isCommand) :=
  (take_countP (pairwise_kind_ofMembers members)).2

end Catalog

namespace Definition

def group (definition : Definition α σ) : Kind → Option (Group α)
  | .command => definition.commands
  | .event => definition.events

/-- A member of the group of the given kind. -/
def HasMember (definition : Definition α σ) (kind : Kind) (m : Member α) : Prop :=
  ∃ g, definition.group kind = some g ∧ m ∈ g.members

end Definition

theorem Group.members?_eq_some {kind : Kind} {g : Group α} {members : List (Member α)}
    (h : members? kind (some g) = some members) : members = g.members := by
  obtain ⟨g', hg, rfl⟩ := Option.map_eq_some_iff.1 h
  rw [← Option.some.inj (Option.filter_eq_some_iff.1 hg).1]

/-- A compiled domain lists the compiled members of both groups, all of them apart. -/
theorem Definition.exists_members {definition : Definition α σ} {d : Domain α σ}
    (h : definition.compile = .ok d) :
    ∃ members, d.catalog = .ofMembers members ∧ members.Pairwise MessageType.Apart ∧
      ∀ kind m, definition.HasMember kind m →
        ∃ t ∈ members, m.compile kind d.uri = .ok t := by
  obtain ⟨_, _, _, _, first, second, -, -, -, ⟨commands, hc, hfirst⟩, ⟨events, he, hsecond⟩, hapart,
    rfl⟩ := Definition.compile_eq_ok_iff_groups.1 h
  refine ⟨_, rfl, hapart, ?_⟩
  rintro kind m ⟨g, hg, hm⟩
  cases kind with
  | command =>
    rw [show definition.commands = some g from hg] at hc
    rw [← Group.members?_eq_some hc] at hm
    obtain ⟨t, ht, hmt⟩ := (images_of_mapM_eq_ok hfirst).1 m hm
    exact ⟨t, List.mem_append_left _ ht, hmt⟩
  | event =>
    rw [show definition.events = some g from hg] at he
    rw [← Group.members?_eq_some he] at hm
    obtain ⟨t, ht, hmt⟩ := (images_of_mapM_eq_ok hsecond).1 m hm
    exact ⟨t, List.mem_append_right _ ht, hmt⟩

theorem Domain.Compiled.byName_of_mem {d : Domain α σ} (h : d.Compiled) {t : MessageType α}
    (ht : t ∈ d.catalog.entries) : d.catalog.byName t.displayName = some t := by
  obtain ⟨definition, h⟩ := h
  obtain ⟨members, hcatalog, hpair, -⟩ := definition.exists_members h
  rw [hcatalog] at ht ⊢
  rw [Catalog.byName_ofMembers]
  refine find?_eq_some_of_unique (List.mem_reverse.2 ht) ?_
  intro u hu hname
  rw [List.mem_reverse] at hu
  exact eq_of_pairwise_ne (hpair.imp And.left) (Catalog.mem_entries_ofMembers.1 hu)
    (Catalog.mem_entries_ofMembers.1 ht) hname

theorem Definition.exists_entry {definition : Definition α σ} {d : Domain α σ}
    (h : definition.compile = .ok d) {kind : Kind} {m : Member α} (hm : definition.HasMember kind m) :
    ∃ t, m.compile kind d.uri = .ok t ∧ d.catalog.byType m.type = some t := by
  obtain ⟨members, hcatalog, -, hmembers⟩ := definition.exists_members h
  obtain ⟨t, ht, hmt⟩ := hmembers kind m hm
  refine ⟨t, hmt, ?_⟩
  have hentry : t ∈ d.catalog.entries := by
    rw [hcatalog]
    exact Catalog.mem_entries_ofMembers.2 ht
  have hname := Domain.Compiled.byName_of_mem ⟨definition, h⟩ hentry
  obtain ⟨huri, v, -, rfl⟩ := Member.compile_eq_ok_iff.1 hmt
  exact Option.filter_eq_some_iff.2 ⟨hname, decide_eq_true huri⟩

theorem Definition.mem_entries {definition : Definition α σ} {d : Domain α σ}
    (h : definition.compile = .ok d) {kind : Kind} {m : Member α} (hm : definition.HasMember kind m)
    {v : UInt8} (hv : m.version (Text.lowercase m.type.name) = .ok v) :
    m.entry kind d.uri v ∈ d.catalog.entries := by
  obtain ⟨t, ht, htype⟩ := definition.exists_entry h hm
  obtain ⟨-, w, hw, rfl⟩ := Member.compile_eq_ok_iff.1 ht
  rw [hv] at hw
  cases hw
  exact Catalog.mem_entries_of_byName (Option.filter_eq_some_iff.1 htype).1

/-- Where the events of a domain have ids of their own, each of them is found by its id. -/
theorem Domain.Compiled.events_byId {d : Domain α σ} (h : d.Compiled)
    (hids : (d.catalog.events.all.map MessageType.typeId).Nodup) {t : MessageType α}
    (ht : t ∈ d.catalog.entries) (hkind : t.kind = .event) :
    d.catalog.events.byId t.typeId = some t := by
  have hkinds : ∀ u ∈ d.catalog.entries, u.typeId = t.typeId → u.kind = .event := by
    intro u hu hid
    rw [← h.kind_typeId hu, hid, h.kind_typeId ht, hkind]
  obtain ⟨definition, h⟩ := h
  obtain ⟨members, hcatalog, -⟩ := definition.exists_members h
  rw [hcatalog] at hids ht hkinds ⊢
  rw [Catalog.events_all] at hids
  refine Option.filter_eq_some_iff.2 ⟨?_, decide_eq_true hkind⟩
  show (Catalog.ofMembers members).byId t.typeId = some t
  rw [Catalog.byId_ofMembers]
  refine find?_eq_some_of_unique (List.mem_reverse.2 ht) ?_
  intro u hu hid
  rw [List.mem_reverse] at hu
  have hevent : ∀ x ∈ (Catalog.ofMembers members).entries, x.kind = .event →
      x ∈ (Catalog.ofMembers members).entries.filter (!·.isCommand) := by
    intro x hx hk
    simp [hx, MessageType.isCommand, hk]
  exact eq_of_pairwise_ne (List.pairwise_map.1 hids) (hevent u hu (hkinds u hu hid))
    (hevent t ht hkind) hid

end EventSourcing
