import NetReplay.Json.Token

/-!
# Documents as trees

`Tree.ofTokens` arranges the tokens of a document as a tree. A document that
breaks off, or goes wrong somewhere, still has a tree: everything in front of
the first mistake is kept, each container that was open there is marked as not
whole, and a member whose value is missing gets the value `broken`. A reader
that goes through the tree in document order therefore meets the mistake after
everything in front of it, and can report an earlier defect first.

The arrangement works on one token at a time. `Await` says what has to come
next, the `Hole`s say in which containers the value under construction will be
placed, innermost first, and `Await.step` is one move. Nesting of any depth is
accepted here; `Tree.settled` is the check that readers use where it is limited.
-/

namespace NetReplay

namespace Json

/-- The value of a document, as far as the document goes. -/
inductive Tree where
  | null
  | bool (b : Bool)
  | number (n : Numeral)
  | string (t : RawText)
  /-- The items of an array, and whether it was closed properly. -/
  | array (items : List Tree) (whole : Bool)
  /-- The members of an object, and whether it was closed properly. -/
  | object (members : List (RawText × Tree)) (whole : Bool)
  /-- A value has to stand here, and none does. -/
  | broken
  deriving Repr, Inhabited

/-- A container that is still open: its content so far, last first. -/
inductive Open where
  | array (items : List Tree)
  | object (members : List (RawText × Tree))

/-- A place in an open container that waits for a value. -/
inductive Hole where
  | item (items : List Tree)
  | member (members : List (RawText × Tree)) (key : RawText)

/-- The container with a value placed in its hole. -/
def Hole.fill : Hole → Tree → Open
  | item items, t => .array (t :: items)
  | member members key, t => .object ((key, t) :: members)

/-- The container, closed properly or given up. -/
def Open.close (whole : Bool) : Open → Tree
  | array items => .array items.reverse whole
  | object members => .object members.reverse whole

/-- What has to come next. -/
inductive Await where
  | value
  | item
  | firstKey
  /-- A further key of an object with these members. -/
  | key (members : List (RawText × Tree))
  | colon (members : List (RawText × Tree)) (key : RawText)
  /-- A comma, or the end of a container. -/
  | separator (container : Open)

/-- Where a token leads. -/
inductive Progress where
  | more (await : Await) (holes : List Hole)
  | done (t : Tree)
  /-- The token cannot stand here. -/
  | stuck

/-- A finished value goes into the innermost hole, or is the whole document. -/
def place (t : Tree) : List Hole → Progress
  | [] => .done t
  | hole :: holes => .more (.separator (hole.fill t)) holes

/-- The move of a token that starts a value. -/
def startValue (token : Token) (holes : List Hole) : Progress :=
  match token with
  | .null => place .null holes
  | .bool b => place (.bool b) holes
  | .number n => place (.number n) holes
  | .string t => place (.string t) holes
  | .openArray => .more .item holes
  | .openObject => .more .firstKey holes
  | _ => .stuck

/-- One move. -/
def Await.step (await : Await) (holes : List Hole) (token : Token) : Progress :=
  match await, token with
  | .value, token => startValue token holes
  | .item, .closeArray => place (.array [] true) holes
  | .item, token => startValue token (.item [] :: holes)
  | .firstKey, .closeObject => place (.object [] true) holes
  | .firstKey, .string name => .more (.colon [] name) holes
  | .key members, .string name => .more (.colon members name) holes
  | .colon members name, .colon => .more .value (.member members name :: holes)
  | .separator (.array items), .comma => .more .value (.item items :: holes)
  | .separator (.array items), .closeArray => place ((Open.array items).close true) holes
  | .separator (.object members), .comma => .more (.key members) holes
  | .separator (.object members), .closeObject => place ((Open.object members).close true) holes
  | _, _ => .stuck

/-- Gives up every open container, with `t` in the innermost hole. -/
def abandon (t : Tree) : List Hole → Tree
  | [] => t
  | hole :: holes => abandon ((hole.fill t).close false) holes

/-- What there is of the document when nothing that fits comes next. -/
def Await.giveUp (await : Await) (holes : List Hole) : Tree :=
  match await with
  | .value => abandon .broken holes
  | .item => abandon (.array [] false) holes
  | .firstKey => abandon (.object [] false) holes
  | .key members => abandon ((Open.object members).close false) holes
  | .colon members name => abandon (((Hole.member members name).fill .broken).close false) holes
  | .separator container => abandon (container.close false) holes

/-- Arranges tokens, and gives back those behind the value. -/
def arrange (await : Await) (holes : List Hole) : List Token → Tree × List Token
  | [] => (await.giveUp holes, [])
  | token :: rest =>
    match await.step holes token with
    | .more await holes => arrange await holes rest
    | .done t => (t, rest)
    | .stuck => (await.giveUp holes, token :: rest)

namespace Tree

/-- The value at the front of a run of tokens, and the tokens behind it. -/
def ofTokens (ts : List Token) : Tree × List Token := arrange .value [] ts

mutual

/-- Whether a value is sound all through: every container closed and no more
than `room` of them inside each other, every string text, every number finite. -/
def settled (room : Nat) : Tree → Bool
  | .null => true
  | .bool _ => true
  | .number n => n.finite
  | .string t => t.decode?.isSome
  | .array items whole => whole && 0 < room && settledItems (room - 1) items
  | .object members whole => whole && 0 < room && settledMembers (room - 1) members
  | .broken => false

/-- Whether all values of a list are settled. -/
def settledItems (room : Nat) : List Tree → Bool
  | [] => true
  | t :: rest => settled room t && settledItems room rest

/-- Whether all keys of a list are text and all its values settled. -/
def settledMembers (room : Nat) : List (RawText × Tree) → Bool
  | [] => true
  | (key, t) :: rest =>
    key.decode?.isSome && settled room t && settledMembers room rest

end

end Tree

end Json

end NetReplay
