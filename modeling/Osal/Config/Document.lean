import Osal.Config
import Osal.Config.Integer

/-!
# Configuration documents

A document is a sequence of lines. A line holds nothing, a comment, or a setting: a key, an equals
sign and an integer literal. Spaces and tabs may stand around each part. A key may be bare or
quoted; each key may be given once, and has to name a setting.
-/

namespace Osal.Config.Document

def isBlank (c : Char) : Bool := c == ' ' || c == '\t'

/-- Whether a character may stand in a comment: no control character but the tab. -/
def isCommentChar (c : Char) : Bool := c == '\t' || (0x20 ≤ c.toNat && c.toNat != 0x7f)

def isBareChar (c : Char) : Bool := c.isAlphanum || c == '_' || c == '-'

/-- Whether the rest of a line is empty or a comment. -/
def isTrailer (cs : List Char) : Bool :=
  match cs.dropWhile isBlank with
  | [] => true
  | '#' :: comment => comment.all isCommentChar
  | _ => false

/-! ## Lines -/

/-- Split at line feeds; a carriage return before a line feed belongs to the line end. -/
def lines : List Char → List (List Char)
  | [] => [[]]
  | '\n' :: rest => [] :: lines rest
  | '\r' :: '\n' :: rest => [] :: lines rest
  | c :: rest =>
    match lines rest with
    | [] => [[c]]
    | line :: more => (c :: line) :: more

/-! ## Keys -/

def codePoint (cs : List Char) : Option Nat :=
  cs.foldlM (fun n c => (Integer.digit? 16 c).map fun d => n * 16 + d) 0

def charOf? (n : Nat) : Option Char := if h : n.isValidChar then some (Char.ofNatAux n h) else none

/-- A double-quoted key up to its closing quote, and what follows. -/
def basicKey (key : List Char) : List Char → Option (List Char × List Char)
  | '"' :: rest => some (key.reverse, rest)
  | '\\' :: 'u' :: a :: b :: c :: d :: rest =>
    ((codePoint [a, b, c, d]).bind charOf?).bind fun ch => basicKey (ch :: key) rest
  | '\\' :: 'U' :: a :: b :: c :: d :: e :: f :: g :: h :: rest =>
    ((codePoint [a, b, c, d, e, f, g, h]).bind charOf?).bind fun ch => basicKey (ch :: key) rest
  | '\\' :: 'b' :: rest => basicKey ('\x08' :: key) rest
  | '\\' :: 't' :: rest => basicKey ('\t' :: key) rest
  | '\\' :: 'n' :: rest => basicKey ('\n' :: key) rest
  | '\\' :: 'f' :: rest => basicKey ('\x0c' :: key) rest
  | '\\' :: 'r' :: rest => basicKey ('\r' :: key) rest
  | '\\' :: '"' :: rest => basicKey ('"' :: key) rest
  | '\\' :: '\\' :: rest => basicKey ('\\' :: key) rest
  | '\\' :: _ => none
  | c :: rest => if isCommentChar c then basicKey (c :: key) rest else none
  | [] => none

/-- A single-quoted key up to its closing quote, and what follows. -/
def literalKey (cs : List Char) : Option (List Char × List Char) :=
  match cs.span fun c => c != '\'' && isCommentChar c with
  | (key, '\'' :: rest) => some (key, rest)
  | _ => none

/-- The key at the start of a line, and what follows. -/
def key : List Char → Option (List Char × List Char)
  | '"' :: cs => basicKey [] cs
  | '\'' :: cs => literalKey cs
  | cs =>
    match cs.span isBareChar with
    | ([], _) => none
    | found => some found

/-! ## Settings -/

/-- The value of a setting: an integer literal within the range of the setting. -/
def value (s : Setting) (literal : List Char) : Option Nat :=
  match Integer.parse literal with
  | some (.ofNat n) => if n ≤ s.maximum then some n else none
  | _ => none

def afterEquals (cs : List Char) : Option (List Char) :=
  match cs.dropWhile isBlank with
  | '=' :: rest => some (rest.dropWhile isBlank)
  | _ => none

/-- The setting on a line without leading blanks. -/
def assignment (cs : List Char) : Option (Setting × Nat) := do
  let (name, rest) ← key cs
  let setting ← Setting.ofKey? (String.ofList name)
  let rest ← afterEquals rest
  let (literal, trailer) := rest.span fun c => !isBlank c && c != '#'
  let n ← value setting literal
  if isTrailer trailer then some (setting, n) else none

/-- Read one line into a configuration, given the settings that earlier lines made. -/
def readLine (state : List Setting × Config) (line : List Char) : Option (List Setting × Config) :=
  if isTrailer line then some state
  else match assignment (line.dropWhile isBlank) with
    | none => none
    | some (setting, n) =>
      if state.1.contains setting then none
      else some (setting :: state.1, setting.assign state.2 n)

/-- The text without a byte order mark at its start. -/
def body (text : List Char) : List Char :=
  match text with
  | '\ufeff' :: rest => rest
  | _ => text

/-- The configuration a document describes, unchecked; settings it does not make have their
defaults. -/
def parse (text : String) : Except ConfigError Config :=
  match (lines (body text.toList)).foldlM readLine ([], {}) with
  | some (_, config) => .ok config
  | none => .error .malformed

end Document

/-- The configuration a document describes, if it passes the check. -/
def ofDocument (text : String) : Except ConfigError Config :=
  (Document.parse text).bind validated

/-- The configuration in a file: its bytes, or nothing if there is no such file. -/
def ofFile (contents : Option ByteArray) : Except ConfigError Config :=
  match contents.bind String.fromUTF8? with
  | some text => ofDocument text
  | none => .error .unreadable

end Osal.Config
