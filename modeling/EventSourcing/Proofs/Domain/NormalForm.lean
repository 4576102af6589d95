import Mathlib.Data.List.SplitBy
import EventSourcing.Domain.Uri

/-! The normal form of a URI. Two colons never stand next to each other in it, and a text in which they
never do is its own normal form, so a URI that is compared with one in normal form is compared with it
by what both of them mean. Colons are taken in pairs from the left, but where the pairs begin is decided
within each run of colons alone: of a run as many slashes are left as it has pairs, and one colon if its
length is odd. -/

namespace EventSourcing.Uri

/-- A colon in front of a normal form was in front before. -/
theorem head?_normalizeChars {cs : List Char} (h : (normalizeChars cs).head? = some ':') :
    cs.head? = some ':' := by
  fun_cases normalizeChars cs with
  | case1 rest => rfl
  | case2 c rest hc =>
    rw [normalizeChars.eq_2 c rest hc] at h
    exact h
  | case3 => exact h

theorem not_infix_normalizeChars (cs : List Char) : ¬ [':', ':'] <:+: normalizeChars cs := by
  fun_induction normalizeChars cs with
  | case1 rest ih =>
    rw [List.infix_cons_iff]
    rintro (h | h)
    · exact absurd (List.cons_prefix_cons.1 h).1 (by decide)
    · exact ih h
  | case2 c rest hc ih =>
    rw [List.infix_cons_iff]
    rintro (h | h)
    · obtain ⟨rfl, ⟨tail, htail⟩⟩ := List.cons_prefix_cons.1 h
      have hcolon : (normalizeChars rest).head? = some ':' := by
        rw [← htail]
        rfl
      obtain ⟨rest', rfl⟩ := List.head?_eq_some_iff.1 (head?_normalizeChars hcolon)
      exact hc rest' rfl rfl
    · exact ih h
  | case3 => simp

theorem normalizeChars_of_not_infix {cs : List Char} (h : ¬ [':', ':'] <:+: cs) :
    normalizeChars cs = cs := by
  fun_induction normalizeChars cs with
  | case1 rest ih => exact absurd ⟨[], rest, rfl⟩ h
  | case2 c rest hc ih =>
    rw [ih fun hinfix => h (List.infix_cons hinfix)]
  | case3 => rfl

theorem normalize_normalize (uri : String) : normalize (normalize uri) = normalize uri := by
  unfold normalize
  rw [String.toList_ofList, normalizeChars_of_not_infix (not_infix_normalizeChars uri.toList)]

theorem normalize_eq_self_iff {uri : String} : normalize uri = uri ↔ ¬ [':', ':'] <:+: uri.toList := by
  unfold normalize
  rw [← String.toList_inj, String.toList_ofList]
  constructor
  · intro h
    rw [← h]
    exact not_infix_normalizeChars uri.toList
  · exact normalizeChars_of_not_infix

section Pieces

def alike (c d : Char) : Bool := c = ':' ↔ d = ':'

/-- The longest runs of colons in a text, and the parts between them. -/
def pieces (cs : List Char) : List (List Char) := cs.splitBy alike

/-- What becomes of a piece. A run of colons turns into slashes, one for two colons, and into a colon at
the end if one is left. Any other piece is kept. -/
def normalPiece (piece : List Char) : List Char :=
  if ':' ∈ piece then List.replicate (piece.length / 2) '/' ++ List.replicate (piece.length % 2) ':'
  else piece

theorem normalizeChars_cons {c : Char} {rest : List Char} (h : c = ':' → rest.head? ≠ some ':') :
    normalizeChars (c :: rest) = c :: normalizeChars rest := by
  apply normalizeChars.eq_2
  intro rest' hc hrest
  apply h hc
  simp [hrest]

theorem normalizeChars_append_of_not_mem {word rest : List Char} (h : ':' ∉ word) :
    normalizeChars (word ++ rest) = word ++ normalizeChars rest := by
  induction word with
  | nil => rfl
  | cons c word ih =>
    rw [List.mem_cons, not_or] at h
    rw [List.cons_append, normalizeChars_cons, ih h.2, List.cons_append]
    intro hc
    exact absurd hc.symm h.1

/-- A run of colons that nothing continues is replaced pair by pair. -/
theorem normalizeChars_replicate_append {rest : List Char} (h : rest.head? ≠ some ':') (n : Nat) :
    normalizeChars (List.replicate n ':' ++ rest) =
      List.replicate (n / 2) '/' ++ List.replicate (n % 2) ':' ++ normalizeChars rest := by
  induction n using Nat.twoStepInduction with
  | zero => rfl
  | one => exact normalizeChars_cons fun _ => h
  | more n ih _ =>
    have hpair : (n + 2) / 2 = n / 2 + 1 := by omega
    have hleft : (n + 2) % 2 = n % 2 := by omega
    show '/' :: normalizeChars (List.replicate n ':' ++ rest) = _
    rw [hpair, hleft, ih]
    rfl

/-- A piece with a colon in it consists of colons. -/
theorem eq_replicate_of_alike {piece : List Char} (h : piece.IsChain fun c d => alike c d = true)
    (hcolon : ':' ∈ piece) : piece = List.replicate piece.length ':' := by
  have halike {c d : Char} : alike c d = true ↔ (c = ':' ↔ d = ':') := decide_eq_true_iff
  have hsymm : Std.Symm fun c d => alike c d = true :=
    ⟨fun _ _ h => halike.2 (halike.1 h).symm⟩
  have htrans : IsTrans Char fun c d => alike c d = true :=
    ⟨fun _ _ _ h h' => halike.2 ((halike.1 h).trans (halike.1 h'))⟩
  have hpairs := List.isChain_iff_pairwise.1 h
  have hall := List.Pairwise.forall_of_forall (fun _ _ => halike.2 Iff.rfl) hpairs
  rw [List.eq_replicate_iff]
  refine ⟨rfl, ?_⟩
  intro c hc
  exact (halike.1 (hall hc hcolon)).2 rfl

/-- Pieces that are apart are replaced one by one. -/
theorem normalizeChars_flatten {ps : List (List Char)} (hne : [] ∉ ps)
    (halike : ∀ piece ∈ ps, piece.IsChain fun c d => alike c d = true)
    (hapart : ps.IsChain fun p q => ∃ hp hq, alike (p.getLast hp) (q.head hq) = false) :
    normalizeChars ps.flatten = ps.flatMap normalPiece := by
  induction ps with
  | nil => rfl
  | cons piece rest ih =>
    rw [List.mem_cons, not_or] at hne
    rw [List.forall_mem_cons] at halike
    have hrest := ih hne.2 halike.2 hapart.tail
    rw [List.flatten_cons, List.flatMap_cons, ← hrest, normalPiece]
    split
    · next hcolon =>
      have hpiece := eq_replicate_of_alike halike.1 hcolon
      have hends : rest.flatten.head? ≠ some ':' := by
        cases rest with
        | nil => simp
        | cons next rest =>
          obtain ⟨hp, hq, hdiffer⟩ := (List.isChain_cons_cons.1 hapart).1
          have hlast : piece.getLast hp = ':' := by
            apply List.eq_of_mem_replicate (n := piece.length)
            rw [← hpiece]
            exact List.getLast_mem hp
          rw [List.flatten_cons, List.head?_append_of_ne_nil _ hq, List.head?_eq_some_head hq]
          simpa [alike, hlast] using hdiffer
      rw [← normalizeChars_replicate_append hends, ← hpiece]
    · next hcolon => exact normalizeChars_append_of_not_mem hcolon

theorem normalizeChars_eq_flatMap (cs : List Char) :
    normalizeChars cs = (pieces cs).flatMap normalPiece := by
  conv_lhs => rw [← List.flatten_splitBy alike cs]
  apply normalizeChars_flatten
  · exact List.nil_notMem_splitBy alike cs
  · intro piece hpiece
    exact List.isChain_of_mem_splitBy hpiece
  · exact List.isChain_getLast_head_splitBy alike cs

end Pieces

end EventSourcing.Uri
