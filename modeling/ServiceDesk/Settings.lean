import ServiceDesk.Text.Ascii
import ServiceDesk.Text.Lowercase
import ServiceDesk.Toml.Document

/-!
The settings of a server. They come from a file and from the environment, which wins; what neither
of them gives keeps its usual value. Names of settings are known in any case, and what is not the
name of a setting does not matter.
-/

namespace ServiceDesk

open Text

structure Settings where
  host : String := "127.0.0.1"
  port : Nat := 8080
  storePath : String := "helpdesk.db"
  deriving DecidableEq, Repr

namespace Settings

def address (settings : Settings) : String := settings.host ++ ":" ++ toString settings.port

/-! ### Names -/

inductive Setting where
  | host
  | port
  | storePath
  deriving DecidableEq, Repr

def Setting.all : List Setting := [.host, .port, .storePath]

def Setting.name : Setting → String
  | .host => "host"
  | .port => "port"
  | .storePath => "store_path"

/-- What is expected at some point behind the name of a setting, where members and positions of
its value are picked out. -/
inductive Selector where
  /-- A new member or position, or the end. -/
  | next
  | member (begun : Bool)
  /-- The blanks and the sign of a position. -/
  | position
  | digits (negative : Bool) (soFar : List Char)
  | closing
  deriving DecidableEq, Repr

def isMemberChar (c : Char) : Bool := c.isAlphanum || c == ' ' || c == '_' || c == '-'

/-- Whether digits, the last one first, give a position. It must fit sixty-four bits. -/
def isPosition (negative : Bool) (soFar : List Char) : Bool :=
  let size : Int := ofDecimalDigits soFar.reverse
  !soFar.isEmpty && isInt64 (if negative then -size else size)

def areSelectors : Selector → List Char → Bool
  | .next, [] => true
  | .member begun, [] => begun
  | _, [] => false
  | .next, c :: rest =>
    if c = '.' then areSelectors (.member false) rest
    else c == '[' && areSelectors .position rest
  | .member begun, c :: rest =>
    if isMemberChar c then areSelectors (.member true) rest
    else if c = '.' ∧ begun then areSelectors (.member false) rest
    else c == '[' && begun && areSelectors .position rest
  | .position, c :: rest =>
    if c = ' ' ∨ c = '\t' then areSelectors .position rest
    else if c = '-' then areSelectors (.digits true []) rest
    else isAsciiDigit c && areSelectors (.digits false [c]) rest
  | .digits negative soFar, c :: rest =>
    if isAsciiDigit c then areSelectors (.digits negative (c :: soFar)) rest
    else if c = ']' then isPosition negative soFar && areSelectors .next rest
    else (c == ' ' || c == '\t') && isPosition negative soFar && areSelectors .closing rest
  | .closing, c :: rest =>
    if c = ']' then areSelectors .next rest
    else (c == ' ' || c == '\t') && areSelectors .closing rest

def namesPart (key : String) (setting : Setting) : Bool :=
  let name := setting.name.toList
  let rest := key.toList.drop name.length
  foldCase (key.toList.take name.length) == name && !rest.isEmpty && areSelectors .next rest

/-! ### Values -/

/-- Settings are texts and a number; values made of others do for none of them. -/
def textOf? : Toml.Node → Option String
  | .scalar (.text value) => some value
  | .scalar (.integer value) => some (toString value)
  | .scalar (.real value) => some value.text
  | .scalar (.bool value) => some (if value then "true" else "false")
  | .scalar (.moment form) => some form
  | _ => none

/-- The number that a text gives: a truth word, or decimal digits behind an optional plus sign. -/
def natOfText? (text : String) : Option Nat :=
  let word := lowercase text
  if ["true", "on", "yes"].contains word then some 1
  else if ["false", "off", "no"].contains word then some 0
  else
    match text.toList with
    | '+' :: digits => natOfDecimal? digits
    | digits => natOfDecimal? digits

def natOf? : Toml.Node → Option Nat
  | .scalar (.text value) => natOfText? value
  | .scalar (.integer value) => if value < 0 then none else some value.toNat
  | .scalar (.real value) => value.toNat?
  | .scalar (.bool value) => some (if value then 1 else 0)
  | .scalar (.moment form) => natOfText? form
  | _ => none

/-- A port is a number of sixteen bits. -/
def portOf? (node : Toml.Node) : Option Nat := (natOf? node).filter (· < 65536)

/-! ### Sources -/

structure Draft where
  host : Option Toml.Node := none
  port : Option Toml.Node := none
  storePath : Option Toml.Node := none

def Draft.set (draft : Draft) (node : Toml.Node) : Setting → Draft
  | .host => { draft with host := some node }
  | .port => { draft with port := some node }
  | .storePath => { draft with storePath := some node }

/-- Take one entry into account. A part makes its setting a value that is made of others. -/
def Draft.assign (draft : Draft) (entry : String × Toml.Node) : Draft :=
  match Setting.all.find? fun setting => setting.name == lowercase entry.1 with
  | some setting => draft.set entry.2 setting
  | none =>
    match Setting.all.find? (namesPart entry.1) with
    | some setting => draft.set (.list []) setting
    | none => draft

def decoded? {α : Type} (usual : α) (decode : Toml.Node → Option α) : Option Toml.Node → Option α
  | none => some usual
  | some node => decode node

def Draft.settings? (draft : Draft) : Option Settings := do
  let usual : Settings := {}
  let host ← decoded? usual.host textOf? draft.host
  let port ← decoded? usual.port portOf? draft.port
  let storePath ← decoded? usual.storePath textOf? draft.storePath
  some { host, port, storePath }

def environmentMark : List Char := ['h', 'e', 'l', 'p', 'd', 'e', 's', 'k', '_']

/-- The entry that an environment variable makes, if it is one of the server's. -/
def environmentEntry? (binding : String × String) : Option (String × Toml.Node) :=
  let name := lowerChars binding.1.toList
  if name.take environmentMark.length = environmentMark then
    some (String.ofList (name.drop environmentMark.length), .scalar (.text binding.2))
  else none

/-- The settings that a file and the environment give. The file may be missing, but if it is there
it must be well-formed, even where the environment gives everything. -/
def ofSources? (file : Option String) (environment : List (String × String)) :
    Option Settings := do
  let entries ← match file with
    | none => some []
    | some source => Toml.ofText? source
  let draft := (entries ++ environment.filterMap environmentEntry?).foldl Draft.assign {}
  draft.settings?

/-! ### Paths -/

/-- Put a path below a folder. An absolute path stays as it is. -/
def below (folder path : List Char) : List Char :=
  if path.head? = some '/' then path
  else if folder.isEmpty ∨ folder.getLast? = some '/' then folder ++ path
  else folder ++ '/' :: path

/-- A path that begins with a tilde and a slash lies below the home folder, if that is known. -/
def expandHome (home : Option String) (path : String) : String :=
  match path.toList, home with
  | '~' :: '/' :: rest, some folder => String.ofList (below folder.toList rest)
  | _, _ => path

end Settings

end ServiceDesk
