import EventSourcing.Numeral

/-!
Domain URIs. The normal form of a URI separates its segments by slashes only. The last segment is
the version of the domain, the one before it its name.
-/

namespace EventSourcing.Uri

/-- Replaces each pair of colons by a slash, from the left. -/
def normalizeChars : List Char → List Char
  | ':' :: ':' :: rest => '/' :: normalizeChars rest
  | c :: rest => c :: normalizeChars rest
  | [] => []

def normalize (uri : String) : String := String.ofList (normalizeChars uri.toList)

/-- The parts between slashes; there is at least one. -/
def segments : List Char → List (List Char)
  | [] => [[]]
  | c :: rest =>
    if c = '/' then [] :: segments rest
    else match segments rest with
      | [] => [[c]]
      | s :: ss => (c :: s) :: ss

def version? : List Char → Option Int32
  | 'v' :: digits =>
    (Numeral.readSigned? Int32.minValue.toInt Int32.maxValue.toInt digits).map Int32.ofInt
  | _ => none

/-- Name and version of a URI with at least three segments. -/
def nameAndVersion? (uri : String) : Option (String × Int32) :=
  match (segments uri.toList).reverse with
  | last :: name :: _ :: _ => (version? last).map (String.ofList name, ·)
  | _ => none

end EventSourcing.Uri
