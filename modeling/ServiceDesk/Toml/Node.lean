import ServiceDesk.Toml.Scalar

/-!
TOML documents as trees of tables. A table remembers how it came to be, because that decides
whether more keys may be put into it later on; a key is never defined twice. When a document is
complete, every table that stands for a moment is replaced by it.
-/

namespace ServiceDesk.Toml

/-- How a table came to be. -/
inductive Origin where
  /-- Written in braces. It is complete. -/
  | braces
  /-- By a header of its own. -/
  | header
  /-- By the header of a table below it. -/
  | implied
  /-- By a dotted key. -/
  | dotted
  deriving DecidableEq, Repr

inductive Node where
  | scalar (value : Scalar)
  | list (items : List Node)
  | table (origin : Origin) (entries : List (String × Node))
  /-- The tables under one repeated header. -/
  | tables (items : List (List (String × Node)))

abbrev Entries := List (String × Node)

namespace Entries

def replace (entries : Entries) (key : String) (node : Node) : Entries :=
  entries.map fun entry => if entry.1 = key then (key, node) else entry

/-- Apply a change to the table at the end of a path. Tables on the way are made where there are
none. By a header one may reach any table that is not in braces, and the last of repeated tables;
by a dotted key only those that have no header of their own. -/
def within (dotted : Bool) (change : Origin → Entries → Option Entries) :
    List String → Origin → Entries → Option Entries
  | [], origin, entries => change origin entries
  | key :: path, _, entries =>
    match entries.lookup key with
    | none => do
      let origin : Origin := if dotted then .dotted else .implied
      let inner ← within dotted change path origin []
      some (entries ++ [(key, .table origin inner)])
    | some (.table origin inner) =>
      if origin = .braces ∨ (dotted ∧ origin = .header) then none
      else do
        let inner ← within dotted change path origin inner
        some (entries.replace key (.table origin inner))
    | some (.tables items) =>
      match items.reverse with
      | [] => none
      | last :: before => do
        let last ← within dotted change path .header last
        some (entries.replace key (.tables (last :: before).reverse))
    | some _ => none

/-- Define a key in a table. If the key is dotted, the table in which it ends must have been made
by dotted keys alone. -/
def define (node : Node) (path : List String) (entries : Entries) : Option Entries :=
  match path.getLast? with
  | none => none
  | some key =>
    within true (fun origin inner =>
      if (path.dropLast ≠ [] ∧ origin ≠ .dotted) ∨ (inner.lookup key).isSome then none
      else some (inner ++ [(key, node)])) path.dropLast .header entries

def defineBelow (header : List String) (node : Node) (path : List String) (entries : Entries) :
    Option Entries :=
  within false (fun _ inner => define node path inner) header .header entries

/-- Open the table of a header. It may have been implied before, but not made in another way; it
comes last from then on. -/
def openTable (header : List String) (entries : Entries) : Option Entries :=
  match header.getLast? with
  | none => none
  | some key =>
    within false (fun _ inner =>
      match inner.lookup key with
      | none => some (inner ++ [(key, .table .header [])])
      | some (.table .implied below) =>
        some (inner.filter (·.1 != key) ++ [(key, .table .header below)])
      | some _ => none) header.dropLast .header entries

def openNext (header : List String) (entries : Entries) : Option Entries :=
  match header.getLast? with
  | none => none
  | some key =>
    within false (fun _ inner =>
      match inner.lookup key with
      | none => some (inner ++ [(key, .tables [[]])])
      | some (.tables items) => some (inner.replace key (.tables (items ++ [[]])))
      | some _ => none) header.dropLast .header entries

end Entries

/-! ### Moments in the guise of tables -/

/-- A table with this key in front stands for the moment that is written under it. What else the
table holds does not matter. -/
def momentKey : String := "$__toml_private_datetime"

def Node.moment? : Node → Option Node
  | .scalar (.text form) => (Scalar.moment? Scalar.quotedRange form.toList).map .scalar
  | _ => none

mutual

/-- What a node stands for. There is nothing for which a table stands whose moment is no moment. -/
def Node.meaning? : Node → Option Node
  | .scalar value => some (.scalar value)
  | .list items => (itemMeanings? items).map .list
  | .table origin entries => tableMeaning? origin entries
  | .tables items => (tableMeanings? items).map .list

def itemMeanings? : List Node → Option (List Node)
  | [] => some []
  | item :: items => do return (← item.meaning?) :: (← itemMeanings? items)

def tableMeanings? : List (List (String × Node)) → Option (List Node)
  | [] => some []
  | entries :: tables => do return (← tableMeaning? .header entries) :: (← tableMeanings? tables)

def tableMeaning? (origin : Origin) : List (String × Node) → Option Node
  | [] => some (.table origin [])
  | entry :: entries =>
    if entry.1 = momentKey then entry.2.moment?
    else do return .table origin ((← entryMeaning? entry) :: (← entryMeanings? entries))

def entryMeanings? : List (String × Node) → Option (List (String × Node))
  | [] => some []
  | entry :: entries => do return (← entryMeaning? entry) :: (← entryMeanings? entries)

def entryMeaning? : String × Node → Option (String × Node)
  | (key, node) => node.meaning?.map (key, ·)

end

end ServiceDesk.Toml
