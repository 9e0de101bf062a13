import NetReplay.Json.Tree
import NetReplay.Table

/-!
# Reading trees as data

Readers turn a tree into data and report the first defect in document order.
Only three kinds of defect are told apart: a required field that is missing, a
field that is given twice, and everything else.

Data with named fields is read by `record`, from an object or from an array
that holds the fields by position, and maps by `table`, where of equal keys the
last counts. The field readers themselves are plain functions on trees: `text`,
`word`, `list`. Where a document becomes data at once, `document` also refuses
anything behind the value.
-/

namespace NetReplay

namespace Json

/-- Why a tree is not the data asked for. -/
inductive DecodeError where
  | missingField (name : String)
  | duplicateField (name : String)
  /-- Bad syntax, a wrong type, a wrong length or a value out of range. -/
  | invalid
  deriving DecidableEq, Repr, Inhabited

def DecodeError.message : DecodeError → String
  | missingField name => s!"missing field `{name}`"
  | duplicateField name => s!"duplicate field `{name}`"
  | invalid => "invalid"

abbrev Decoded := Except DecodeError

namespace Tree

/-- Containers that may be open at a time where a value is read as a whole. -/
def nestingLimit : Nat := 127

def decodeText (t : RawText) : Decoded String :=
  match t.decode? with
  | some s => .ok s
  | none => .error .invalid

def text : Tree → Decoded String
  | .string t => decodeText t
  | _ => .error .invalid

def word : Tree → Decoded UInt64
  | .number n =>
    match n.word? with
    | some w => .ok w
    | none => .error .invalid
  | _ => .error .invalid

variable {α β σ : Type}

def list (read : Tree → Decoded α) : Tree → Decoded (List α)
  | .array items whole => do
    let values ← items.mapM read
    if whole then pure values else throw .invalid
  | _ => .error .invalid

/-- Reads a value that may be null. -/
def nullable (read : Tree → Decoded α) : Tree → Decoded (Option α)
  | .null => .ok none
  | t => some <$> read t

/-- Reads an object as a map; of equal keys the last counts. -/
def table (read : Tree → Decoded α) : Tree → Decoded (Table α)
  | .object members whole => do
    let entries ← members.mapM fun (key, t) => do
      let key ← decodeText key
      let value ← read t
      pure (key, value)
    if whole then pure (Table.ofList entries) else throw .invalid
  | _ => .error .invalid

/-- Hands the members of an object to `step`, in document order. -/
def foldMembers (step : σ → String → Tree → Decoded σ) (s : σ) :
    List (RawText × Tree) → Decoded σ
  | [] => .ok s
  | (key, t) :: rest => do
    let name ← decodeText key
    let s ← step s name t
    foldMembers step s rest

/-- Hands the items of an array to `step` under the names of their positions. -/
def foldItems (step : σ → String → Tree → Decoded σ) (s : σ) :
    List String → List Tree → Decoded σ
  | name :: names, t :: rest => do
    let s ← step s name t
    foldItems step s names rest
  | _, _ => .ok s

/-- Reads data with the given fields. `step` takes in one field and skips those
it does not know; `finish` puts the data together and reports what is missing.
An array gives the fields by position and must not be longer than their list;
a field missing there is a wrong length. -/
def record (fields : List String) (start : σ) (step : σ → String → Tree → Decoded σ)
    (finish : σ → Decoded α) : Tree → Decoded α
  | .object members whole => do
    let s ← foldMembers step start members
    if whole then finish s else throw .invalid
  | .array items whole => do
    let s ← foldItems step start fields items
    if whole && items.length ≤ fields.length then
      (finish s).mapError fun _ => .invalid
    else throw .invalid
  | _ => .error .invalid

/-- Takes in a field that may be given once. -/
def once (name : String) (field : Option α) (read : Tree → Decoded α) (t : Tree) :
    Decoded (Option α) :=
  match field with
  | some _ => .error (.duplicateField name)
  | none => some <$> read t

/-- A field that has to be there. -/
def required (name : String) : Option α → Decoded α
  | some a => .ok a
  | none => .error (.missingField name)

end Tree

/-- Reads a document that consists of one value. -/
def document {α : Type} (read : Tree → Decoded α) (s : List UInt8) : Decoded α :=
  match Tree.ofTokens (tokens s) with
  | (t, behind) => do
    let a ← read t
    if behind.isEmpty then pure a else throw .invalid

end Json

end NetReplay
