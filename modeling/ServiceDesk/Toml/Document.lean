import ServiceDesk.Toml.Lexeme
import ServiceDesk.Toml.Node

/-!
Reading a TOML document. The reader takes one lexeme after another and keeps what has been defined
so far, the header under which it stands, and what it is in the middle of.
-/

namespace ServiceDesk.Toml

open Text

/-- Keys and values must not have this many levels. -/
def depthLimit : Nat := 80

/-- A key of which a part may be missing. Complete parts are kept with the last one first. -/
inductive KeyDraft where
  /-- A part must come. -/
  | wanted (parts : List String)
  | bare (parts : List String) (soFar : List Char)
  /-- The last part is complete. -/
  | ended (parts : List String)

namespace KeyDraft

def isBareChar (c : Char) : Bool := c.isAlphanum || c == '-' || c == '_'

def step : KeyDraft → Lexeme → Option KeyDraft
  | .wanted parts, .char c =>
    if isLineBlank c then some (.wanted parts)
    else if isBareChar c then some (.bare parts [c])
    else none
  | .wanted parts, .text value false => some (.ended (value :: parts))
  | .bare parts soFar, .char c =>
    let ended := String.ofList soFar.reverse :: parts
    if isBareChar c then some (.bare parts (c :: soFar))
    else if isLineBlank c then some (.ended ended)
    else if c = '.' then some (.wanted ended)
    else none
  | .ended parts, .char c =>
    if isLineBlank c then some (.ended parts)
    else if c = '.' then some (.wanted parts)
    else none
  | _, _ => none

def path? (draft : KeyDraft) : Option (List String) :=
  let parts? := match draft with
    | .wanted _ => none
    | .bare parts soFar => some (String.ofList soFar.reverse :: parts)
    | .ended parts => some parts
  (parts?.filter fun parts => parts.length < depthLimit).map List.reverse

end KeyDraft

/-- A list or table in braces that is still open. -/
inductive Frame where
  /-- The items so far, the last one first. -/
  | list (items : List Node)
  /-- The entries so far, and the key whose value comes next. -/
  | table (entries : Entries) (key : List String)

/-- Where a value goes: the key of the line, and what is open around the value. -/
structure Place where
  key : List String
  stack : List Frame

/-- What the reader is in the middle of. -/
inductive Activity where
  | line
  /-- Behind a complete line. -/
  | lineEnd
  /-- Behind the first bracket of a header. -/
  | headerStart
  | header (repeated : Bool) (key : KeyDraft)
  /-- Behind the first closing bracket of a repeated header. -/
  | headerEnd (path : List String)
  | key (key : KeyDraft)
  | value (place : Place)
  /-- In a list where a value or the end of the list must come. -/
  | item (place : Place)
  /-- Behind a value in a list. -/
  | itemEnd (place : Place)
  /-- In braces, before or within a key. -/
  | field (place : Place) (entries : Entries) (first : Bool) (key : KeyDraft)
  /-- Behind a value in braces. -/
  | fieldEnd (place : Place) (entries : Entries)
  /-- Within a bare value, whose characters are kept with the last one first. -/
  | bare (place : Place) (soFar : List Char)
  /-- Behind a date and one blank, where a time of day may come. -/
  | dateGap (place : Place) (soFar : List Char)

structure Reader where
  entries : Entries
  header : List String
  activity : Activity

namespace Reader

def start : Reader := ⟨[], [], .line⟩

def isBareChar (c : Char) : Bool := KeyDraft.isBareChar c || c == '+' || c == '.' || c == ':'

def finish (reader : Reader) (place : Place) (node : Node) : Option Reader :=
  match place.stack with
  | [] => do
    let entries ← reader.entries.defineBelow reader.header node place.key
    some { reader with entries, activity := .lineEnd }
  | .list items :: stack =>
    some { reader with activity := .itemEnd ⟨place.key, .list (node :: items) :: stack⟩ }
  | .table entries key :: stack => do
    let entries ← entries.define node key
    some { reader with activity := .fieldEnd ⟨place.key, stack⟩ entries }

def beginValue (reader : Reader) (place : Place) : Lexeme → Option Reader
  | .text value _ => reader.finish place (.scalar (.text value))
  | .char c =>
    if c = '[' ∨ c = '\x7b' then
      if depthLimit ≤ place.stack.length + 1 then none
      else if c = '[' then
        some { reader with activity := .item ⟨place.key, .list [] :: place.stack⟩ }
      else some { reader with activity := .field place [] true (.wanted []) }
    else if isBareChar c then some { reader with activity := .bare place [c] }
    else none

def closeList (reader : Reader) (place : Place) : Option Reader :=
  match place.stack with
  | .list items :: stack => reader.finish ⟨place.key, stack⟩ (.list items.reverse)
  | _ => none

def stepEnded (reader : Reader) : Lexeme → Option Reader
  | .text _ _ => none
  | .char c =>
    if isLineBlank c then some reader
    else
      match reader.activity with
      | .lineEnd => if c = '\n' then some { reader with activity := .line } else none
      | .itemEnd place =>
        if c = '\n' then some reader
        else if c = ',' then some { reader with activity := .item place }
        else if c = ']' then reader.closeList place
        else none
      | .fieldEnd place entries =>
        if c = ',' then
          some { reader with activity := .field place entries false (.wanted []) }
        else if c = '\x7d' then reader.finish place (.table .braces entries)
        else none
      | _ => none

def stepBehindBare (reader : Reader) (place : Place) (soFar : List Char) (lexeme : Lexeme) :
    Option Reader := do
  let value ← Scalar.ofBare? soFar.reverse
  let reader ← reader.finish place (.scalar value)
  reader.stepEnded lexeme

def isDate (soFar : List Char) : Bool :=
  match Time.takeDate soFar.reverse with
  | some (_, []) => true
  | _ => false

/-- A lexeme within a key, or one of the two that end it: a bracket ends the key of a header and
an equals sign any other. -/
def stepKey (mark : Char) (key : KeyDraft) (lexeme : Lexeme) : Option (KeyDraft ⊕ List String) :=
  if lexeme = .char mark then key.path?.map .inr else (key.step lexeme).map .inl

def step (reader : Reader) (lexeme : Lexeme) : Option Reader :=
  match reader.activity with
  | .line =>
    match lexeme with
    | .char c =>
      if isLineBlank c ∨ c = '\n' then some reader
      else if c = '[' then some { reader with activity := .headerStart }
      else ((KeyDraft.wanted []).step lexeme).map fun key =>
        { reader with activity := .key key }
    | _ => ((KeyDraft.wanted []).step lexeme).map fun key => { reader with activity := .key key }
  | .headerStart =>
    if lexeme = .char '[' then some { reader with activity := .header true (.wanted []) }
    else ((KeyDraft.wanted []).step lexeme).map fun key =>
      { reader with activity := .header false key }
  | .header repeated key =>
    match stepKey ']' key lexeme with
    | none => none
    | some (.inl key) => some { reader with activity := .header repeated key }
    | some (.inr path) =>
      if repeated then some { reader with activity := .headerEnd path }
      else (reader.entries.openTable path).map (⟨·, path, .lineEnd⟩)
  | .headerEnd path =>
    if lexeme = .char ']' then (reader.entries.openNext path).map (⟨·, path, .lineEnd⟩) else none
  | .key key =>
    match stepKey '=' key lexeme with
    | none => none
    | some (.inl key) => some { reader with activity := .key key }
    | some (.inr path) => some { reader with activity := .value ⟨path, []⟩ }
  | .value place =>
    match lexeme with
    | .char c => if isLineBlank c then some reader else reader.beginValue place lexeme
    | _ => reader.beginValue place lexeme
  | .item place =>
    match lexeme with
    | .char c =>
      if isLineBlank c ∨ c = '\n' then some reader
      else if c = ']' then reader.closeList place
      else reader.beginValue place lexeme
    | _ => reader.beginValue place lexeme
  | .field place entries first key =>
    match first, key, lexeme with
    | true, .wanted [], .char '\x7d' => reader.finish place (.table .braces entries)
    | _, _, _ =>
      match stepKey '=' key lexeme with
      | none => none
      | some (.inl key) => some { reader with activity := .field place entries first key }
      | some (.inr path) =>
        some { reader with activity := .value ⟨place.key, .table entries path :: place.stack⟩ }
  | .bare place soFar =>
    match lexeme with
    | .char c =>
      if isBareChar c then some { reader with activity := .bare place (c :: soFar) }
      else if c = ' ' ∧ isDate soFar then some { reader with activity := .dateGap place soFar }
      else reader.stepBehindBare place soFar lexeme
    | _ => none
  | .dateGap place soFar =>
    match lexeme with
    | .char c =>
      if isAsciiDigit c then some { reader with activity := .bare place (c :: ' ' :: soFar) }
      else reader.stepBehindBare place soFar lexeme
    | _ => none
  | .lineEnd | .itemEnd _ | .fieldEnd _ _ => reader.stepEnded lexeme

end Reader

/-- The entries of a document as they are written. A byte order mark at its front does not
matter. -/
def writtenEntries? (source : String) : Option Entries := do
  let text := match source.toList with
    | '\uFEFF' :: rest => rest
    | text => text
  let lexemes ← lexemes? .plain text
  let reader ← (lexemes ++ [Lexeme.char '\n']).foldlM Reader.step Reader.start
  match reader.activity with
  | .line => some reader.entries
  | _ => none

/-- Read a document. As a whole it must be a table. -/
def ofText? (source : String) : Option Entries := do
  let entries ← writtenEntries? source
  match ← tableMeaning? .header entries with
  | .table _ entries => some entries
  | _ => none

end ServiceDesk.Toml
