/-!
# TOML values

The values of a configuration text. A table remembers how it came to be, since that
decides who may add to it: a table of its own header is closed to a second header, one
that a longer header implied is open to its own, one made by dotted keys is open to
more dotted keys, and one written inline is closed to all.
-/

namespace Intake

/-- How a table came to be. -/
inductive Toml.Making where
  | header
  | implied
  | dotted
  | inlined
  deriving DecidableEq, Repr

/-- A TOML value. Floats and dates are told apart by kind alone. -/
inductive Toml where
  | string (s : String)
  | integer (n : Int)
  | float
  | boolean (b : Bool)
  | datetime
  | array (items : List Toml)
  | table (making : Toml.Making) (entries : List (String × Toml))
  /-- The elements that repeated double-bracket headers made, in their order. -/
  | tables (elements : List (List (String × Toml)))
  deriving Repr

namespace Toml

/-- The entries of a table. -/
abbrev Entries := List (String × Toml)

/-- The value of a key. -/
def get? (entries : Entries) (key : String) : Option Toml :=
  (entries.find? (fun e => e.1 == key)).map Prod.snd

/-- Gives a key a value, in its old place if it had one. -/
def set (entries : Entries) (key : String) (v : Toml) : Entries :=
  if entries.any (fun e => e.1 == key) then
    entries.map (fun e => if e.1 == key then (key, v) else e)
  else entries ++ [(key, v)]

/-- Changes the innermost table on the way of a header, making the missing ones. -/
def withinHeader (entries : Entries) (path : List String)
    (f : Entries → Option Entries) : Option Entries :=
  match path with
  | [] => f entries
  | key :: rest =>
    match get? entries key with
    | none => (withinHeader [] rest f).map (fun es => set entries key (.table .implied es))
    | some (.table .inlined _) => none
    | some (.table making es) =>
      (withinHeader es rest f).map (fun es' => set entries key (.table making es'))
    | some (.tables elements) =>
      match elements.getLast? with
      | some es =>
        (withinHeader es rest f).map
          (fun es' => set entries key (.tables (elements.dropLast ++ [es'])))
      | none => none
    | some _ => none

/-- Opens the table of a header: it must be new, or only implied so far. -/
def openTable (root : Entries) (path : List String) (key : String) : Option Entries :=
  withinHeader root path fun es =>
    match get? es key with
    | none => some (set es key (.table .header []))
    | some (.table .implied inner) => some (set es key (.table .header inner))
    | some _ => none

/-- Opens one more element of the array of a double-bracket header. -/
def openElement (root : Entries) (path : List String) (key : String) : Option Entries :=
  withinHeader root path fun es =>
    match get? es key with
    | none => some (set es key (.tables [[]]))
    | some (.tables elements) => some (set es key (.tables (elements ++ [[]])))
    | some _ => none

/-- Adds a value under a dotted key. Tables on the way are made by this key or by
dotted keys or longer headers before it, and the innermost one must be a dotted one. -/
def putDotted (entries : Entries) (path : List String) (key : String) (v : Toml) :
    Option Entries :=
  match path with
  | [] => if (get? entries key).isSome then none else some (set entries key v)
  | step :: rest =>
    match get? entries step with
    | none => (putDotted [] rest key v).map (fun es => set entries step (.table .dotted es))
    | some (.table .dotted es) =>
      (putDotted es rest key v).map (fun es' => set entries step (.table .dotted es'))
    | some (.table .implied es) =>
      if rest.isEmpty then none
      else (putDotted es rest key v).map (fun es' => set entries step (.table .implied es'))
    | some (.tables elements) =>
      if rest.isEmpty then none
      else match elements.getLast? with
        | some es =>
          (putDotted es rest key v).map
            (fun es' => set entries step (.tables (elements.dropLast ++ [es'])))
        | none => none
    | some _ => none

end Toml
end Intake
