import EventSourcing.Domain.Definition
import EventSourcing.Proofs.Fault
import EventSourcing.Proofs.Numeral

/-! What definitions say with their names. The URI of a domain ends in its version. The version of a
member is written in its tag, or else in its name behind the last mark `_v`. -/

namespace EventSourcing

namespace Uri

/-- The URI has at least three segments, and the last one is a `v` before a number of 32 bits. -/
def Versioned (uri : String) : Prop :=
  3 ≤ (uri.toList.splitOn '/').length ∧
    ∃ (number : List Char) (i : Int32), (uri.toList.splitOn '/').getLast? = some ('v' :: number) ∧
      Numeral.WritesSigned number i.toInt

theorem segments_eq (uri : List Char) : segments uri = uri.splitOn '/' := by
  unfold List.splitOn
  induction uri with
  | nil => rfl
  | cons c rest ih =>
    rw [segments, List.splitOnP_cons_eq_if_modifyHead, ih]
    by_cases hc : c = '/'
    · simp [hc]
    · have hne := List.splitOnP_ne_nil (· == '/') rest
      simp only [hc, if_false, beq_iff_eq]
      split
      · next h => exact absurd h hne
      · next s ss h => rw [h]; rfl

theorem version?_eq_some_iff {segment : List Char} {i : Int32} :
    version? segment = some i ↔
      ∃ number, segment = 'v' :: number ∧ Numeral.WritesSigned number i.toInt := by
  unfold version?
  split
  · next number =>
    simp only [Option.map_eq_some_iff, Numeral.readSigned?_eq_some_iff]
    refine ⟨?_, ?_⟩
    · rintro ⟨j, ⟨hj, hmin, hmax⟩, rfl⟩
      refine ⟨number, rfl, ?_⟩
      rwa [Int32.toInt_ofInt_of_le hmin (by rw [Int32.toInt_maxValue] at hmax; omega)]
    · rintro ⟨_, h, hi⟩
      cases h
      exact ⟨i.toInt, ⟨hi, i.minValue_le_toInt, i.toInt_le⟩, Int32.ofInt_toInt i⟩
  · next hv =>
    refine ⟨nofun, ?_⟩
    rintro ⟨number, h, -⟩
    exact absurd h (hv number)

theorem exists_nameAndVersion_iff {uri : String} :
    (∃ parts, nameAndVersion? uri = some parts) ↔ Versioned uri := by
  unfold nameAndVersion? Versioned
  rw [segments_eq]
  obtain ⟨reversed, hsegments⟩ : ∃ reversed, uri.toList.splitOn '/' = List.reverse reversed :=
    ⟨_, List.reverse_reverse _ |>.symm⟩
  rw [hsegments, List.reverse_reverse, List.length_reverse, List.getLast?_reverse]
  rcases reversed with _ | ⟨last, _ | ⟨name, _ | ⟨third, front⟩⟩⟩
  · simp
  · simp
  · simp
  · simp only [Option.map_eq_some_iff, version?_eq_some_iff, List.head?_cons, Option.some.injEq]
    refine ⟨?_, ?_⟩
    · rintro ⟨_, i, ⟨number, hlast, hi⟩, -⟩
      exact ⟨by simp, number, i, hlast, hi⟩
    · rintro ⟨-, number, i, hlast, hi⟩
      exact ⟨_, i, ⟨number, hlast, hi⟩, rfl⟩

end Uri

def versionMark : List Char := ['_', 'v']

theorem suffix?_cons (c : Char) (rest : List Char) :
    suffix? (c :: rest) = (suffix? rest).or
      (if versionMark <+: rest then some (rest.drop 2) else none) := by
  refine (suffix?.eq_def (c :: rest)).trans ?_
  dsimp only
  congr 1
  split
  · next suffix => exact (if_pos (List.prefix_append versionMark suffix)).symm
  · next hmark =>
    rw [if_neg]
    rintro ⟨suffix, rfl⟩
    exact hmark suffix rfl

/-- There is none just if the name has no mark behind its first character. -/
theorem suffix?_eq_none_iff {c : Char} {rest : List Char} :
    suffix? (c :: rest) = none ↔ ¬ versionMark <:+: rest := by
  induction rest generalizing c with
  | nil =>
    refine ⟨fun _ h => ?_, fun _ => rfl⟩
    cases List.infix_nil.1 h
  | cons d rest ih =>
    rw [suffix?_cons, Option.or_eq_none_iff, ih, List.infix_cons_iff, not_or, and_comm]
    simp

/-- Directly behind a mark there is no other one but in what follows both its characters. -/
theorem suffix?_mark_eq_none_iff {suffix : List Char} :
    suffix? (versionMark ++ suffix) = none ↔ ¬ versionMark <:+: suffix := by
  have hfirst : ¬ versionMark <+: 'v' :: suffix := by simp [versionMark]
  show suffix? ('_' :: 'v' :: suffix) = none ↔ _
  rw [suffix?_eq_none_iff, List.infix_cons_iff, or_iff_right hfirst]

/-- The last mark counts, and only behind the first character. -/
theorem suffix?_eq_some_iff {name suffix : List Char} :
    suffix? name = some suffix ↔
      ∃ front, front ≠ [] ∧ name = front ++ versionMark ++ suffix ∧ ¬ versionMark <:+: suffix := by
  induction name with
  | nil => simp [suffix?, versionMark]
  | cons c rest ih =>
    rw [suffix?_cons]
    refine ⟨?_, ?_⟩
    · intro h
      rcases Option.or_eq_some_iff.1 h with h | ⟨hnone, h⟩
      · obtain ⟨front, -, rfl, hlast⟩ := ih.1 h
        exact ⟨c :: front, List.cons_ne_nil c front, rfl, hlast⟩
      · split at h
        · next hmark =>
          obtain ⟨suffix, rfl⟩ := hmark
          cases h
          exact ⟨[c], List.cons_ne_nil c [], rfl, suffix?_mark_eq_none_iff.1 hnone⟩
        · cases h
    · rintro ⟨front, hne, hname, hlast⟩
      obtain ⟨d, front, rfl⟩ := List.exists_cons_of_ne_nil hne
      have hrest : rest = front ++ versionMark ++ suffix := (List.cons.inj hname).2
      cases front with
      | nil =>
        rw [List.nil_append] at hrest
        rw [hrest, suffix?_mark_eq_none_iff.2 hlast, Option.none_or,
          if_pos (List.prefix_append versionMark suffix)]
        rfl
      | cons e front =>
        rw [ih.2 ⟨e :: front, List.cons_ne_nil e front, hrest, hlast⟩, Option.some_or]

namespace Member

variable {α : Type}

/-- The text in which a member states its version: the tag, or else what follows the last mark in
its lower-case name. A mark at the very start of the name is none. -/
def VersionText (m : Member α) (text : List Char) : Prop :=
  m.tag = some (String.ofList text) ∨
    m.tag = none ∧ ∃ front, front ≠ [] ∧
      (Text.lowercase m.type.name).toList = front ++ versionMark ++ text ∧
      ¬ versionMark <:+: text

/-- The version is the number that is written there, and 1 if there is no such text. -/
def HasVersion (m : Member α) (v : UInt8) : Prop :=
  (∃ text, m.VersionText text ∧ Numeral.WritesUnsigned text v.toNat) ∨
    (∀ text, ¬ m.VersionText text) ∧ v = 1

theorem versionText_iff {m : Member α} {text : List Char} :
    m.VersionText text ↔
      (m.tag.map String.toList).or (suffix? (Text.lowercase m.type.name).toList) = some text := by
  unfold VersionText
  rw [← suffix?_eq_some_iff]
  cases m.tag with
  | none => simp
  | some tag =>
    have htag : tag = String.ofList text ↔ tag.toList = text := by
      rw [← String.toList_inj, String.toList_ofList]
    simp [htag]

theorem readVersion_eq_ok_iff {text : List Char} {v : UInt8} :
    readVersion text = .ok v ↔ Numeral.WritesUnsigned text v.toNat := by
  have hv : v.toNat ≤ 255 := Nat.le_of_lt_succ v.toNat_lt
  unfold readVersion
  cases hn : Numeral.readUnsigned? 255 text with
  | none =>
    refine ⟨nofun, ?_⟩
    intro h
    rw [Numeral.readUnsigned?_eq_some_iff.2 ⟨h, hv⟩] at hn
    cases hn
  | some n =>
    obtain ⟨hwrites, hmax⟩ := Numeral.readUnsigned?_eq_some_iff.1 hn
    refine ⟨?_, ?_⟩
    · intro h
      cases h
      rwa [UInt8.toNat_ofNat_of_lt' (Nat.lt_succ_of_le hmax)]
    · intro h
      rw [Numeral.readUnsigned?_eq_some_iff.2 ⟨h, hv⟩] at hn
      cases hn
      exact congrArg Except.ok v.ofNat_toNat

theorem version_eq (m : Member α) :
    m.version (Text.lowercase m.type.name) =
      match (m.tag.map String.toList).or (suffix? (Text.lowercase m.type.name).toList) with
      | some text => (readVersion text).mapError (.invalidMessageVersion m.type.name)
      | none => .ok 1 := by
  unfold version
  cases m.tag with
  | none => rfl
  | some tag => rfl

theorem version_eq_ok_iff {m : Member α} {v : UInt8} :
    m.version (Text.lowercase m.type.name) = .ok v ↔ m.HasVersion v := by
  rw [version_eq]
  unfold HasVersion
  simp only [versionText_iff]
  cases (m.tag.map String.toList).or (suffix? (Text.lowercase m.type.name).toList) with
  | none => simp [eq_comm]
  | some text =>
    dsimp only
    rw [mapError_eq_ok_iff, readVersion_eq_ok_iff]
    simp

theorem exists_of_version_eq_error {m : Member α} {error : CompileError}
    (h : m.version (Text.lowercase m.type.name) = .error error) :
    ∃ text, m.VersionText text ∧
      error = .invalidMessageVersion m.type.name (String.ofList text) := by
  rw [version_eq] at h
  split at h
  · next text htext =>
    refine ⟨text, versionText_iff.2 htext, ?_⟩
    unfold readVersion at h
    split at h
    · cases h
    · cases h
      rfl
  · cases h

end Member
end EventSourcing
