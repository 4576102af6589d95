import Mathlib.Data.List.Forall2
import Mathlib.Data.List.Nodup
import EventSourcing.Json.Reader
import EventSourcing.Proofs.Fault

/-! Records in objects and arrays. The entries of an object may stand in any order, and among others
that are skipped: what counts is that each field is met once at most and passes its check. So the
values of the fields are looked up among the entries, and a field that is not met has its value for
that case. An array has the values of the first fields. -/

namespace EventSourcing.Json

/-- In a table without repeated keys the value of a key is the one that stands with it. -/
theorem lookup_eq_some_iff_mem {table : List (String × Value)} (h : (table.map Prod.fst).Nodup)
    {k : String} {v : Value} : table.lookup k = some v ↔ (k, v) ∈ table := by
  refine ⟨?_, ?_⟩
  · intro hlookup
    obtain ⟨before, after, rfl, -⟩ := List.lookup_eq_some_iff.1 hlookup
    simp
  · intro hmem
    induction table with
    | nil => cases hmem
    | cons e table ih =>
      obtain ⟨hne, h⟩ := List.nodup_cons.1 h
      rcases List.mem_cons.1 hmem with rfl | hmem
      · exact List.lookup_cons_self
      · have hk : (k == e.1) = false := by
          rw [beq_eq_false_iff_ne]
          rintro rfl
          exact hne (List.mem_map.2 ⟨(e.1, v), hmem, rfl⟩)
        rw [List.lookup_cons, hk]
        exact ih h hmem

theorem lookup_cons_eq_none_iff {table : List (String × Value)} {k k' : String} {v : Value} :
    ((k, v) :: table).lookup k' = none ↔ k' ≠ k ∧ table.lookup k' = none := by
  by_cases h : k' = k
  · subst h
    simp
  · have hk : (k' == k) = false := by simp [h]
    rw [List.lookup_cons, hk]
    simp [h]

theorem lookup_eq_of_perm {table table' : List (String × Value)} (h : (table.map Prod.fst).Nodup)
    (hperm : table.Perm table') (k : String) : table.lookup k = table'.lookup k := by
  have h' : (table'.map Prod.fst).Nodup := (hperm.map Prod.fst).nodup_iff.1 h
  refine Option.ext fun v => ?_
  rw [lookup_eq_some_iff_mem h, lookup_eq_some_iff_mem h', hperm.mem_iff]

section Objects

variable (fields : List Field)

/-- The entry belongs to a field and passes its check, or it belongs to none and is JSON. -/
def Passes : Option String × Value → Prop
  | (none, _) => False
  | (some k, v) =>
    match fields.find? (·.name = k) with
    | some f => f.check v = .ok ()
    | none => v.complete = true

def known (entries : List (Option String × Value)) : List (String × Value) :=
  entries.filterMap fun e => e.1.bind fun k => (fields.find? (·.name = k)).map fun _ => (k, e.2)

variable {fields} {entries : List (Option String × Value)} {closed : Bool}

theorem mem_known_iff {k : String} {v : Value} : (k, v) ∈ known fields entries ↔
    (some k, v) ∈ entries ∧ (fields.find? (·.name = k)).isSome := by
  simp only [known, List.mem_filterMap, Option.bind_eq_some_iff, Option.map_eq_some_iff]
  refine ⟨?_, ?_⟩
  · rintro ⟨⟨_, _⟩, he, k, rfl, f, hf, h⟩
    cases h
    exact ⟨he, by rw [hf]; rfl⟩
  · rintro ⟨he, hf⟩
    obtain ⟨f, hf⟩ := Option.isSome_iff_exists.1 hf
    exact ⟨(some k, v), he, k, rfl, f, hf, rfl⟩

theorem collect_known {k : String} {v : Value} {f : Field} {seen out : List (String × Value)}
    (hf : fields.find? (·.name = k) = some f) :
    collect fields closed ((some k, v) :: entries) seen = .ok out ↔
      seen.lookup k = none ∧ f.check v = .ok () ∧
        collect fields closed entries ((k, v) :: seen) = .ok out := by
  rw [collect, hf]
  dsimp only
  cases hseen : seen.lookup k with
  | some v' => simp [bind, Except.bind, throw, throwThe, MonadExceptOf.throw]
  | none =>
    show (f.check v >>= fun _ => collect fields closed entries ((k, v) :: seen)) = .ok out ↔ _
    rw [bind_eq_ok_iff]
    refine ⟨?_, ?_⟩
    · rintro ⟨⟨⟩, hcheck, h⟩
      exact ⟨rfl, hcheck, h⟩
    · rintro ⟨-, hcheck, h⟩
      exact ⟨(), hcheck, h⟩

/-- The entries are collected in the reverse of their order. -/
theorem collect_eq_ok_iff {seen out : List (String × Value)} :
    collect fields closed entries seen = .ok out ↔
      closed = true ∧ (∀ e ∈ entries, Passes fields e) ∧
        ((known fields entries).map Prod.fst).Nodup ∧
        (∀ e ∈ known fields entries, seen.lookup e.1 = none) ∧
        out = (known fields entries).reverse ++ seen := by
  induction entries generalizing seen with
  | nil =>
    cases closed with
    | false => simp [collect]
    | true => simpa [collect, known] using eq_comm
  | cons e entries ih =>
    obtain ⟨k | k, v⟩ := e
    · simp [collect, Passes]
    rw [List.forall_mem_cons]
    cases hf : fields.find? (·.name = k) with
    | none =>
      have hknown : known fields ((some k, v) :: entries) = known fields entries := by
        simp [known, hf]
      have hpasses : Passes fields (some k, v) ↔ v.complete = true := by simp only [Passes, hf]
      rw [hknown, hpasses, collect, hf]
      dsimp only
      split
      · next hv => rw [ih]; simp [hv]
      · next hv => simp [hv]
    | some f =>
      have hknown : known fields ((some k, v) :: entries) = (k, v) :: known fields entries := by
        simp [known, hf]
      have hpasses : Passes fields (some k, v) ↔ f.check v = .ok () := by simp only [Passes, hf]
      rw [hknown, hpasses, collect_known hf, ih, List.map_cons, List.nodup_cons,
        List.forall_mem_cons, List.reverse_cons, List.append_assoc]
      refine ⟨?_, ?_⟩
      · rintro ⟨hk, hcheck, hclosed, hpass, hnodup, hfresh, hout⟩
        have hfresh := fun e he => lookup_cons_eq_none_iff.1 (hfresh e he)
        refine ⟨hclosed, ⟨hcheck, hpass⟩, ⟨?_, hnodup⟩, ⟨hk, fun e he => (hfresh e he).2⟩, hout⟩
        intro hmem
        obtain ⟨e, he, rfl⟩ := List.mem_map.1 hmem
        exact (hfresh e he).1 rfl
      · rintro ⟨hclosed, ⟨hcheck, hpass⟩, ⟨hmem, hnodup⟩, ⟨hk, hfresh⟩, hout⟩
        refine ⟨hk, hcheck, hclosed, hpass, hnodup, fun e he => ?_, hout⟩
        refine lookup_cons_eq_none_iff.2 ⟨?_, hfresh e he⟩
        rintro rfl
        exact hmem (List.mem_map.2 ⟨e, he, rfl⟩)

theorem settle_eq_ok_iff {seen : List (String × Value)} {fs : List Field} {values : List Value} :
    settle seen fs = .ok values ↔
      List.Forall₂ (fun f v => (seen.lookup f.name).or f.absent = some v) fs values := by
  induction fs generalizing values with
  | nil =>
    rw [List.forall₂_nil_left_iff]
    exact ⟨fun h => (Except.ok.inj h).symm, fun h => congrArg Except.ok h.symm⟩
  | cons f fs ih =>
    rw [settle, List.forall₂_cons_left_iff]
    cases hv : (seen.lookup f.name).or f.absent with
    | none => simp
    | some v =>
      dsimp only
      rw [map_eq_ok_iff]
      simp only [ih]
      refine ⟨?_, ?_⟩
      · rintro ⟨rest, hrest, rfl⟩
        exact ⟨v, rest, rfl, hrest, rfl⟩
      · rintro ⟨v', rest, ⟨⟩, hrest, rfl⟩
        exact ⟨rest, hrest, rfl⟩

/-- An object is read as the record if each field is met once at most, and passes. -/
theorem readRecord_object_eq_ok_iff {name : String} {values : List Value} :
    readRecord name fields (.object entries closed) = .ok values ↔
      closed = true ∧ (∀ e ∈ entries, Passes fields e) ∧
        ((known fields entries).map Prod.fst).Nodup ∧
        List.Forall₂ (fun f v => ((known fields entries).lookup f.name).or f.absent = some v)
          fields values := by
  have hlookup (h : ((known fields entries).map Prod.fst).Nodup) (k : String) :
      ((known fields entries).reverse ++ []).lookup k = (known fields entries).lookup k := by
    rw [List.append_nil, lookup_eq_of_perm h (List.reverse_perm _).symm]
  rw [readRecord, bind_eq_ok_iff]
  simp only [collect_eq_ok_iff, settle_eq_ok_iff]
  refine ⟨?_, ?_⟩
  · rintro ⟨seen, ⟨hclosed, hpass, hnodup, -, rfl⟩, hvalues⟩
    simp only [hlookup hnodup] at hvalues
    exact ⟨hclosed, hpass, hnodup, hvalues⟩
  · rintro ⟨hclosed, hpass, hnodup, hvalues⟩
    refine ⟨_, ⟨hclosed, hpass, hnodup, fun _ _ => rfl, rfl⟩, ?_⟩
    simp only [hlookup hnodup]
    exact hvalues

/-- The values of the fields may stand in any order, and anything that is JSON among them. -/
theorem readRecord_object {name : String} {present : List (String × Value)}
    {others : List (Option String × Value)} {values : List Value}
    (hentries : entries.Perm ((present.map fun (k, v) => (some k, v)) ++ others))
    (hnodup : (present.map Prod.fst).Nodup)
    (hpresent : ∀ e ∈ present, ∃ f, fields.find? (·.name = e.1) = some f ∧ f.check e.2 = .ok ())
    (hothers : ∀ e ∈ others, ∃ k, e.1 = some k ∧ fields.find? (·.name = k) = none ∧ e.2.complete)
    (hvalues :
      List.Forall₂ (fun f v => (present.lookup f.name).or f.absent = some v) fields values) :
    readRecord name fields (.object entries true) = .ok values := by
  have hknown : known fields ((present.map fun (k, v) => (some k, v)) ++ others) = present := by
    have hothers' : others.filterMap (fun e => e.1.bind fun k =>
        (fields.find? (·.name = k)).map fun _ => (k, e.2)) = [] := by
      rw [List.filterMap_eq_nil_iff]
      intro e he
      obtain ⟨k, hk, hf, -⟩ := hothers e he
      rw [hk, Option.bind_some, hf]
      rfl
    have hpresent' :
        ∀ e ∈ present, (fields.find? (·.name = e.1)).map (fun _ => (e.1, e.2)) = some e := by
      intro e he
      obtain ⟨f, hf, -⟩ := hpresent e he
      rw [hf]
      rfl
    rw [known, List.filterMap_append, hothers', List.append_nil, List.filterMap_map]
    exact (List.filterMap_congr hpresent').trans List.filterMap_some
  have hperm : present.Perm (known fields entries) := by
    rw [← hknown]
    exact (hentries.filterMap _).symm
  have hlookup := lookup_eq_of_perm hnodup hperm
  refine readRecord_object_eq_ok_iff.2 ⟨rfl, ?_, (hperm.map Prod.fst).nodup_iff.1 hnodup, ?_⟩
  · intro e he
    rcases List.mem_append.1 (hentries.mem_iff.1 he) with he | he
    · obtain ⟨⟨k, v⟩, hmem, rfl⟩ := List.mem_map.1 he
      obtain ⟨f, hf, hcheck⟩ := hpresent (k, v) hmem
      simpa only [Passes, hf] using hcheck
    · obtain ⟨k, hk, hf, hcomplete⟩ := hothers e he
      obtain ⟨_, v⟩ := e
      subst hk
      simpa only [Passes, hf] using hcomplete
  · simp only [← hlookup]
    exact hvalues

end Objects

/-- A record that has its fields in declared order is read as their values. -/
theorem readRecord_record (name : String) (pairs : List (Field × Value))
    (hnames : (pairs.map (·.1.name)).Nodup) (hcheck : ∀ p ∈ pairs, p.1.check p.2 = .ok ()) :
    readRecord name (pairs.map Prod.fst) (.record (pairs.map fun p => (p.1.name, p.2))) =
      .ok (pairs.map Prod.snd) := by
  have hnodup : ((pairs.map fun p => (p.1.name, p.2)).map Prod.fst).Nodup := by
    rwa [List.map_map]
  refine readRecord_object (.of_eq (List.append_nil _).symm) hnodup ?_ nofun ?_
  · intro e he
    obtain ⟨p, hp, rfl⟩ := List.mem_map.1 he
    cases hf : (pairs.map Prod.fst).find? (·.name = p.1.name) with
    | none => exact absurd (List.find?_eq_none.1 hf p.1 (List.mem_map_of_mem hp)) (by simp)
    | some f =>
      obtain ⟨q, hq, rfl⟩ := List.mem_map.1 (List.mem_of_find?_eq_some hf)
      have hname : q.1.name = p.1.name := by simpa using List.find?_some hf
      have hqp := List.inj_on_of_nodup_map hnames hq hp hname
      exact ⟨q.1, rfl, hqp ▸ hcheck q hq⟩
  · rw [List.forall₂_map_left_iff, List.forall₂_map_right_iff, List.forall₂_same]
    intro p hp
    rw [(lookup_eq_some_iff_mem hnodup).2 (List.mem_map.2 ⟨p, hp, rfl⟩)]
    rfl

/-- The items of an array are the values of the first fields. -/
theorem prefix_of_takeFields {name : String} {all met : Nat} {closed : Bool} {fields : List Field}
    {items values : List Value} (h : takeFields name all closed met fields items = .ok values) :
    items <+: values ∧ values.length = fields.length := by
  induction fields generalizing met items values with
  | nil =>
    cases items with
    | nil =>
      cases closed with
      | false => cases h
      | true =>
        cases h
        exact ⟨List.prefix_rfl, rfl⟩
    | cons v items => cases h
  | cons f fields ih =>
    cases items with
    | nil =>
      rw [takeFields] at h
      split at h
      · cases h
      · split at h
        · obtain ⟨rest, hrest, rfl⟩ := map_eq_ok_iff.1 h
          exact ⟨List.nil_prefix, congrArg (· + 1) (ih hrest).2⟩
        · cases h
    | cons v items =>
      obtain ⟨-, -, h⟩ := bind_eq_ok_iff.1 h
      obtain ⟨rest, hrest, h⟩ := bind_eq_ok_iff.1 h
      cases h
      obtain ⟨hfront, hlength⟩ := ih hrest
      refine ⟨List.cons_prefix_cons.2 ⟨rfl, hfront⟩, ?_⟩
      rw [List.length_cons, List.length_cons, hlength]

end EventSourcing.Json
