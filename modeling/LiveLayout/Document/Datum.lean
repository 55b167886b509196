/-!
# Documents as data

What a configuration file or a record in text form holds, whatever the notation it is written in.
Floats and dates keep only their spelling, since nothing here computes with them.
-/

namespace LiveLayout

/-- A piece of a document. -/
inductive Datum where
  | null
  | bool (value : Bool)
  | int (value : Int)
  | float (spelling : String)
  | date (spelling : String)
  | text (value : String)
  | list (items : List Datum)
  | table (entries : List (String × Datum))
  deriving Inhabited

/-- The notations that documents are written in. -/
inductive DocumentKind where
  | json
  | toml
  deriving DecidableEq, Repr

namespace Datum

/-- The entry of a name in a table. -/
def get? (datum : Datum) (name : String) : Option Datum :=
  match datum with
  | table entries => entries.lookup name
  | _ => none

/-- An integer from 0 to `most`. -/
def natUpTo? (most : Nat) : Datum → Option Nat
  | int value => if 0 ≤ value ∧ value ≤ most then some value.toNat else none
  | _ => none

/-- A truth value. -/
def bool? : Datum → Option Bool
  | bool value => some value
  | _ => none

/-- A text. -/
def text? : Datum → Option String
  | text value => some value
  | _ => none

/-- A list of texts. -/
def texts? : Datum → Option (List String)
  | list items => items.mapM text?
  | _ => none

/-- A value without content. JSON has null for it; TOML has an empty list or table. -/
def isHollow (kind : DocumentKind) : Datum → Bool
  | null => kind = .json
  | list items => kind = .toml && items.isEmpty
  | table entries => kind = .toml && entries.isEmpty
  | _ => false

/-- The name of a choice that has no content: a text, or the only key of a table, with nothing
behind it. -/
def choice? (kind : DocumentKind) : Datum → Option String
  | text name => some name
  | table [(name, body)] => if body.isHollow kind then some name else none
  | _ => none

/-- A record with the given fields, as a table: a table, or a list of the first fields in order.
More items than fields are ignored in TOML only. A date is a table without any of the fields. -/
def record? (kind : DocumentKind) (fields : List String) : Datum → Option Datum
  | table entries => some (.table entries)
  | list items =>
    if kind = .json ∧ fields.length < items.length then none
    else some (.table (fields.zip items))
  | date _ => some (.table [])
  | _ => none

end Datum

end LiveLayout
