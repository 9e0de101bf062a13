import NetReplay.Program.Basic
import NetReplay.Proofs.Json.Record

/-!
# Programs and the documents that describe them

A `Description` is what a document says about a program, and `Description.program` is
the program that it stands for. How a description is put into a document is left open:
the members of an object may stand in any order and among unknown ones, a field that may
be left out may also be given, and an object with named fields may be an array
(`IsLayout`, `IsStatement`, `IsDescriptionFor`). A text renders a description when it
spells such a document (`Description.RendersFor`). Documents for different kinds of
runtimes differ in their tag, and `IsDescription` and `Description.Renders` are about the
supported one.

The size of the input and of the output is a bare number of elements, or a layout. Such a
layout has to be read ahead as a whole, which asks something of all its values, the
unknown ones included (`IsPort`).

Every description has a rendering, whatever the tag (`Description.exists_rendersFor`).
-/

namespace NetReplay

open Json

namespace Program

/-! ## Descriptions -/

/-- What a program takes in or gives out. -/
structure Port where
  elements : UInt64
  /-- The label given to the element type. -/
  dtype : Option String
  deriving DecidableEq, Repr

/-- What a document says about a program. -/
structure Description where
  input : Port
  output : Port
  buffers : Table Layout
  /-- The source texts of the kernels. -/
  kernels : Table String
  statements : List Statement

namespace Description

/-- The most elements of a buffer whose bytes a word can count. -/
def maxElements : Nat := Nat.pow 2 62 - 1

/-- The bytes of every buffer can be counted. -/
structure Fits (d : Description) : Prop where
  input : d.input.elements.toNat ≤ maxElements
  output : d.output.elements.toNat ≤ maxElements
  buffers : ∀ key layout, d.buffers.get? key = some layout → layout.size.toNat ≤ maxElements

/-- The program of a description: a buffer is filled by the tensor of its identifier,
unless that is empty, and no tensor fills the input or the output. -/
def program (d : Description) : Program where
  backendTag := "GPU"
  input := ⟨"input", d.input.elements, d.input.dtype, none⟩
  output := ⟨"outputs", d.output.elements, d.output.dtype, none⟩
  buffers := d.buffers.map fun key layout =>
    ⟨key, layout.size, layout.dtype, if layout.id = "" then none else some layout.id⟩
  kernels := d.kernels
  statements := d.statements

end Description

/-! ## Documents -/

/-- The value describes this layout. -/
def IsLayout (t : Tree) (l : Layout) : Prop :=
  ∃ given, Tree.IsRecord ["size", "dtype", "id"] given t ∧
    Tree.Given Tree.IsWord (given "size") l.size ∧
    Tree.GivenOr none (Tree.IsNullable Tree.IsText) (given "dtype") l.dtype ∧
    Tree.GivenOr "" Tree.IsText (given "id") l.id

/-- The value describes this statement. -/
def IsStatement (t : Tree) (s : Statement) : Prop :=
  ∃ given, Tree.IsRecord ["kernel", "args", "global_size", "local_size"] given t ∧
    Tree.Given Tree.IsText (given "kernel") s.kernel ∧
    Tree.Given (Tree.IsList Tree.IsText) (given "args") s.args ∧
    Tree.Given (Tree.IsList Tree.IsWord) (given "global_size") s.globalSize ∧
    Tree.GivenOr [] (Tree.IsList Tree.IsWord) (given "local_size") s.localSize

/-- The value describes this input or output: by a bare number, or by a layout that is
within a limit, whatever tensor it names. -/
inductive IsPort (limit : Tree → Prop) : Tree → Port → Prop
  | bare {t : Tree} {n : UInt64} (h : t.IsWord n) : IsPort limit t ⟨n, none⟩
  | layout {t : Tree} {l : Layout} (h : IsLayout t l) (hlimit : limit t) :
      IsPort limit t ⟨l.size, l.dtype⟩

/-- The value is a document of this description for runtimes of a tag, which need not be
the supported one. -/
def IsDescriptionFor (limit : Tree → Prop) (tag : String) (t : Tree) (d : Description) : Prop :=
  ∃ given, Tree.IsRecord
      ["backend", "input_size", "output_size", "functions", "statements", "buffers"] given t ∧
    Tree.Given Tree.IsText (given "backend") tag ∧
    Tree.Given (IsPort limit) (given "input_size") d.input ∧
    Tree.Given (IsPort limit) (given "output_size") d.output ∧
    Tree.GivenOr .empty (Tree.IsTable Tree.IsText) (given "functions") d.kernels ∧
    Tree.GivenOr [] (Tree.IsList IsStatement) (given "statements") d.statements ∧
    Tree.GivenOr .empty (Tree.IsTable IsLayout) (given "buffers") d.buffers

/-- The value is a document of this description, for the supported runtime. -/
def IsDescription (limit : Tree → Prop) (t : Tree) (d : Description) : Prop :=
  IsDescriptionFor limit supportedTag t d

/-- The containers that may be open inside the outermost one where a value is read as a
whole. -/
def innerNesting : Nat := Tree.nestingLimit - 1

/-- What reading ahead asks of a layout: its containers are not nested too deep, its
numbers are finite and its texts and keys can be decoded, unknown members included. -/
def Settles (t : Tree) : Prop := t.settled innerNesting = true

/-- The bytes are a document of this description for runtimes of a tag, with blanks
anywhere between its tokens. -/
def Description.RendersFor (limit : Tree → Prop) (tag : String) (d : Description)
    (s : List UInt8) : Prop :=
  ∃ t : Tree, t.Spelled s ∧ IsDescriptionFor limit tag t d

/-- The bytes are a document of this description, for the supported runtime. -/
def Description.Renders (limit : Tree → Prop) (d : Description) (s : List UInt8) : Prop :=
  d.RendersFor limit supportedTag s

/-! ## Writing descriptions -/

/-- A list as a value. -/
def listValue {α : Type} (value : α → Tree) (l : List α) : Tree := .array (l.map value) true

/-- A table as a value. -/
def tableValue {α : Type} (value : α → Tree) (t : Table α) : Tree :=
  .object (Tree.membersOf (t.toList.map fun e => (e.1, value e.2))) true

def Layout.entries (l : Layout) : List (String × Tree) :=
  [("size", .ofWord l.size), ("id", .ofText l.id)] ++
    (l.dtype.map fun label => ("dtype", .ofText label)).toList

def Layout.value (l : Layout) : Tree := .object (Tree.membersOf l.entries) true

def Statement.value (s : Statement) : Tree :=
  .object (Tree.membersOf [("kernel", .ofText s.kernel), ("args", listValue .ofText s.args),
    ("global_size", listValue .ofWord s.globalSize),
    ("local_size", listValue .ofWord s.localSize)]) true

/-- The layout of a port that names no tensor. -/
def Port.layout (p : Port) : Layout := ⟨p.elements, p.dtype, ""⟩

def Description.valueFor (tag : String) (d : Description) : Tree :=
  .object (Tree.membersOf [("backend", .ofText tag), ("input_size", d.input.layout.value),
    ("output_size", d.output.layout.value), ("functions", tableValue .ofText d.kernels),
    ("statements", listValue Statement.value d.statements),
    ("buffers", tableValue Layout.value d.buffers)]) true

section

variable {α : Type} {value : α → Tree} {means : Tree → α → Prop}

theorem isList_listValue (h : ∀ a, means (value a) a) (l : List α) :
    Tree.IsList means (listValue value l) l := by
  refine ⟨_, rfl, List.forall₂_map_left_iff.mpr ?_⟩
  exact List.forall₂_same.mpr fun a _ => h a

theorem isTable_tableValue (h : ∀ a, means (value a) a) (t : Table α) :
    Tree.IsTable means (tableValue value t) t := by
  refine ⟨_, t.toList, rfl, ?_, Table.ofList_toList t⟩
  rw [Tree.membersOf, List.map_map, List.forall₂_map_left_iff]
  exact List.forall₂_same.mpr fun e _ => ⟨RawText.decode?_ofString e.1, h e.2⟩

theorem written_listValue {room : Nat} (h : ∀ a, (value a).Written room) (l : List α) :
    (listValue value l).Written (room + 1) := by
  refine .array room _ fun t ht => ?_
  obtain ⟨a, -, rfl⟩ := List.mem_map.mp ht
  exact h a

theorem written_tableValue {room : Nat} (h : ∀ a, (value a).Written room) (t : Table α) :
    (tableValue value t).Written (room + 1) := by
  refine .object room _ fun m hm => ?_
  obtain ⟨e, -, rfl⟩ := List.mem_map.mp hm
  exact h e.2

end

theorem isLayout_value (l : Layout) : IsLayout l.value l := by
  obtain ⟨size, dtype, id⟩ := l
  refine ⟨_, Tree.isRecord_membersOf _ ?_, ⟨_, rfl, Tree.isWord_ofWord size⟩, ?_,
    Or.inr ⟨_, rfl, Tree.isText_ofText id⟩⟩
  · cases dtype <;> simp [Layout.entries]
  · cases dtype with
    | none => exact Or.inl ⟨rfl, rfl⟩
    | some label =>
        exact Or.inr ⟨_, rfl, .value (fun h => by cases h) (Tree.isText_ofText label)⟩

theorem written_layout_value (room : Nat) (l : Layout) : l.value.Written (room + 1) := by
  refine .object room _ fun m hm => ?_
  rw [Layout.entries, List.mem_append, List.mem_cons, List.mem_singleton, Option.mem_toList,
    Option.map_eq_some_iff] at hm
  rcases hm with (rfl | rfl) | ⟨label, -, rfl⟩
  · exact Tree.written_ofWord room l.size
  · exact Tree.written_ofText room l.id
  · exact Tree.written_ofText room label

theorem isStatement_value (s : Statement) : IsStatement s.value s := by
  refine ⟨_, Tree.isRecord_membersOf _ (by simp), ⟨_, rfl, Tree.isText_ofText s.kernel⟩,
    ⟨_, rfl, isList_listValue Tree.isText_ofText s.args⟩,
    ⟨_, rfl, isList_listValue Tree.isWord_ofWord s.globalSize⟩,
    Or.inr ⟨_, rfl, isList_listValue Tree.isWord_ofWord s.localSize⟩⟩

theorem written_statement_value (room : Nat) (s : Statement) : s.value.Written (room + 2) := by
  refine .object (room + 1) _ fun m hm => ?_
  simp only [List.mem_cons, List.not_mem_nil, or_false] at hm
  rcases hm with rfl | rfl | rfl | rfl
  · exact Tree.written_ofText _ s.kernel
  · exact written_listValue (Tree.written_ofText room) s.args
  · exact written_listValue (Tree.written_ofWord room) s.globalSize
  · exact written_listValue (Tree.written_ofWord room) s.localSize

theorem isPort_value (p : Port) : IsPort Settles p.layout.value p :=
  .layout (isLayout_value p.layout) (Tree.settled_of_written (written_layout_value _ p.layout))

namespace Description

theorem isDescriptionFor_valueFor (tag : String) (d : Description) :
    IsDescriptionFor Settles tag (d.valueFor tag) d := by
  refine ⟨_, Tree.isRecord_membersOf _ (by simp), ⟨_, rfl, Tree.isText_ofText tag⟩,
    ⟨_, rfl, isPort_value d.input⟩, ⟨_, rfl, isPort_value d.output⟩,
    Or.inr ⟨_, rfl, isTable_tableValue Tree.isText_ofText d.kernels⟩,
    Or.inr ⟨_, rfl, isList_listValue isStatement_value d.statements⟩,
    Or.inr ⟨_, rfl, isTable_tableValue isLayout_value d.buffers⟩⟩

theorem written_valueFor (tag : String) (d : Description) : (d.valueFor tag).Written 4 := by
  refine .object 3 _ fun m hm => ?_
  simp only [List.mem_cons, List.not_mem_nil, or_false] at hm
  rcases hm with rfl | rfl | rfl | rfl | rfl | rfl
  · exact Tree.written_ofText 3 tag
  · exact written_layout_value 2 d.input.layout
  · exact written_layout_value 2 d.output.layout
  · exact written_tableValue (Tree.written_ofText 2) d.kernels
  · exact written_listValue (written_statement_value 0) d.statements
  · exact written_tableValue (written_layout_value 1) d.buffers

/-- Every description can be written as a document, for runtimes of any tag. -/
theorem exists_rendersFor (tag : String) (d : Description) :
    ∃ s, d.RendersFor Settles tag s :=
  ⟨_, d.valueFor tag, Tree.spelled_render (d.written_valueFor tag) 0,
    d.isDescriptionFor_valueFor tag⟩

end Description

end Program

end NetReplay
