import HandHistory.Text

/-!
# Documents

A document is what is printed as JSON: a tree of records and lists over texts,
whole numbers, amounts and flags. Fields keep the order in which they are
given. How a document is written out is a matter of its printer.
-/

namespace HandHistory

inductive Document where
  | null
  | flag (value : Bool)
  | number (value : Int)
  | amount (value : Float)
  | text (value : Text)
  | list (items : List Document)
  | record (fields : List (Text × Document))

namespace Document

def ofNat (n : Nat) : Document := .number n

/-- A value, or null where there is none. -/
def orNull {α : Type} (write : α → Document) (value? : Option α) : Document :=
  value?.elim .null write

def texts (values : List Text) : Document := .list (values.map .text)

end Document

end HandHistory
