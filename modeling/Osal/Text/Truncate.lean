/-!
# Cutting a text to a number of bytes

A text is cut at the last boundary between characters that lies within a number of bytes. The
boundary is searched downwards from the number of bytes, or from the end of a shorter text.
-/

namespace Osal.Text

/-- How many bytes the encoding of some characters has. -/
def byteLength : List Char → Nat
  | [] => 0
  | c :: rest => c.utf8Size + byteLength rest

/-- Whether a number of bytes ends between two characters, or at an end. -/
def isBoundary : List Char → Nat → Bool
  | _, 0 => true
  | [], _ + 1 => false
  | c :: rest, n + 1 => c.utf8Size ≤ n + 1 && isBoundary rest (n + 1 - c.utf8Size)

/-- The last boundary at or below a number of bytes. -/
def boundaryAtMost (cs : List Char) : Nat → Nat
  | 0 => 0
  | n + 1 => if isBoundary cs (n + 1) then n + 1 else boundaryAtMost cs n

/-- The characters that end within a number of bytes. -/
def takeBytes : List Char → Nat → List Char
  | [], _ => []
  | c :: rest, n => if c.utf8Size ≤ n then c :: takeBytes rest (n - c.utf8Size) else []

/-- Some characters cut to at most `maxBytes` bytes. -/
def truncateChars (cs : List Char) (maxBytes : Nat) : List Char :=
  takeBytes cs (boundaryAtMost cs (min (byteLength cs) maxBytes))

/-- A text cut to at most `maxBytes` bytes. -/
def truncate (s : String) (maxBytes : Nat) : String :=
  String.ofList (truncateChars s.toList maxBytes)

end Osal.Text
