import CertRegistry.Toml.Document

/-!
# Settings from TOML

Records whose fields are settings. A record is written as a table, of which unknown keys are
passed over, or as a list of the values in the order of the fields; what is missing keeps its
default.
-/

namespace CertRegistry.Toml

/-- A setting of the record `α`. -/
structure Setting (α : Type) where
  name : String
  read? : α → Item → Option α

namespace Item

def text? : Item → Option String
  | text s => some s
  | _ => none

/-- A whole number below a bound that is not negative. -/
def natural? (bound : Nat) : Item → Option Nat
  | integer n => if 0 ≤ n ∧ n < bound then some n.toNat else none
  | _ => none

def bool? : Item → Option Bool
  | bool b => some b
  | _ => none

end Item

namespace Setting

variable {α β : Type}

/-- A setting whose value is put into the record. -/
def of (name : String) (read? : Item → Option β) (put : α → β → α) : Setting α :=
  { name, read? := fun a item => (read? item).map (put a) }

/-- Reads the entries of a table into a record. -/
def readEntries? (settings : List (Setting α)) (start : α) (entries : Entries) : Option α :=
  entries.foldlM (fun a e =>
    match settings.find? (·.name = e.1) with
    | some setting => setting.read? a e.2
    | none => some a) start

/-- Reads a list of values into a record. -/
def readItems? (settings : List (Setting α)) (start : α) (items : List Item) : Option α :=
  (settings.zip items).foldlM (fun a e => e.1.read? a e.2) start

/-- Reads an item into a record. A date or time counts as a table without any known key. -/
def readRecord? (settings : List (Setting α)) (start : α) : Item → Option α
  | .table _ entries => readEntries? settings start entries
  | .list items => readItems? settings start items
  | .tables all => readItems? settings start (all.map (.table .header))
  | .moment => some start
  | _ => none

/-- A setting that is a record itself. -/
def group (name : String) (settings : List (Setting β)) (get : α → β) (put : α → β → α) :
    Setting α :=
  { name, read? := fun a item => (readRecord? settings (get a) item).map (put a) }

end Setting

end CertRegistry.Toml
