import NetReplay.Proofs.Program.Rendering

/-!
# Programs are read from any rendering

Whatever renders a description of a size that fits is read as the program of the
description (`ofBytes_of_renders`). The fields of a layout, of a statement and of a
document are each taken in by themselves (`Tree.Fieldwise`), so neither their order nor
what stands between them shows.

For a layout that stands for the input or the output it is not enough that its
containers are not nested too deep: an unknown member with a number beyond the doubles
makes the document unreadable (`not_forall_ofBytes_of_renders`).
-/

namespace NetReplay

open Json

namespace Program

/-! ## Layouts -/

/-- The fields of a layout as far as they were seen. -/
def Layout.fieldsUpTo (l : Layout) (seen : String → Bool) : Layout.Fields where
  size := if seen "size" then some l.size else none
  dtype := if seen "dtype" then some l.dtype else none
  id := if seen "id" then some l.id else none

theorem fieldwise_layout (l : Layout) :
    Tree.Fieldwise ["size", "dtype", "id"] Layout.step l.fieldsUpTo where
  nodup := by decide
  skip f name t hname := by
    simp only [List.mem_cons, List.not_mem_nil, or_false, not_or] at hname
    have hskip : Layout.step f name t = pure f := by simp [Layout.step, hname]
    exact hskip
  congr seen other h := by simp [Layout.fieldsUpTo, h]

theorem read_of_isLayout {t : Tree} {l : Layout} (h : IsLayout t l) : Layout.read t = .ok l := by
  obtain ⟨given, hrecord, hsize, hdtype, hid⟩ := h
  have hlabel : ∀ t s, Tree.IsNullable Tree.IsText t s → Tree.nullable Tree.text t = .ok s :=
    fun _ _ => Tree.nullable_of_isNullable fun t s => (Tree.reads_text.ok_iff t s).mpr
  -- Each field is given to its own reader, whatever was seen before it.
  refine Tree.record_of_isRecord (fieldwise_layout l) hrecord ?_ ?_
  · intro name hname u hu seen hseen
    simp only [List.mem_cons, List.not_mem_nil, or_false] at hname
    rcases hname with rfl | rfl | rfl
    · have hread := (Tree.reads_word.ok_iff u _).mpr (hsize.means hu)
      simp [Layout.step, Layout.fieldsUpTo, hseen, Tree.once_of_not_seen hread]
    · have hread := hlabel u _ (hdtype.means hu)
      simp [Layout.step, Layout.fieldsUpTo, hseen, Tree.once_of_not_seen hread]
    · have hread := (Tree.reads_text.ok_iff u _).mpr (hid.means hu)
      simp [Layout.step, Layout.fieldsUpTo, hseen, Tree.once_of_not_seen hread]
  · simp only [Layout.finish, Layout.fieldsUpTo, hsize.seen, hdtype.seen, hid.seen]
    rfl

/-! ## Statements -/

/-- The fields of a statement as far as they were seen. -/
def Statement.fieldsUpTo (s : Statement) (seen : String → Bool) : Statement.Fields where
  kernel := if seen "kernel" then some s.kernel else none
  args := if seen "args" then some s.args else none
  globalSize := if seen "global_size" then some s.globalSize else none
  localSize := if seen "local_size" then some s.localSize else none

theorem fieldwise_statement (s : Statement) :
    Tree.Fieldwise ["kernel", "args", "global_size", "local_size"] Statement.step
      s.fieldsUpTo where
  nodup := by decide
  skip f name t hname := by
    simp only [List.mem_cons, List.not_mem_nil, or_false, not_or] at hname
    have hskip : Statement.step f name t = pure f := by simp [Statement.step, hname]
    exact hskip
  congr seen other h := by simp [Statement.fieldsUpTo, h]

theorem read_of_isStatement {t : Tree} {s : Statement} (h : IsStatement t s) :
    Statement.read t = .ok s := by
  obtain ⟨given, hrecord, hkernel, hargs, hglobal, hlocal⟩ := h
  refine Tree.record_of_isRecord (fieldwise_statement s) hrecord ?_ ?_
  · intro name hname u hu seen hseen
    simp only [List.mem_cons, List.not_mem_nil, or_false] at hname
    rcases hname with rfl | rfl | rfl | rfl
    · have hread := (Tree.reads_text.ok_iff u _).mpr (hkernel.means hu)
      simp [Statement.step, Statement.fieldsUpTo, hseen, Tree.once_of_not_seen hread]
    · have hread := (Tree.reads_text.list.ok_iff u _).mpr (hargs.means hu)
      simp [Statement.step, Statement.fieldsUpTo, hseen, Tree.once_of_not_seen hread]
    · have hread := (Tree.reads_word.list.ok_iff u _).mpr (hglobal.means hu)
      simp [Statement.step, Statement.fieldsUpTo, hseen, Tree.once_of_not_seen hread]
    · have hread := (Tree.reads_word.list.ok_iff u _).mpr (hlocal.means hu)
      simp [Statement.step, Statement.fieldsUpTo, hseen, Tree.once_of_not_seen hread]
  · simp only [Statement.finish, Statement.fieldsUpTo, hkernel.seen, hargs.seen, hglobal.seen,
      hlocal.seen]
    rfl

/-! ## Input and output -/

theorem settled_of_isWord {t : Tree} {n : UInt64} (h : t.IsWord n) (room : Nat) :
    t.settled room = true := by
  obtain ⟨digits, rfl, hvalue⟩ := h
  refine Numeral.finite_of_lt ?_
  rw [hvalue]
  exact n.toNat_lt

/-- A layout is no bare number. -/
theorem not_isWord_of_isLayout {t : Tree} {l : Layout} (h : IsLayout t l) (n : UInt64) :
    ¬ t.IsWord n := by
  obtain ⟨given, hrecord, -⟩ := h
  rintro ⟨digits, rfl, -⟩
  cases hrecord

/-- What the size of an input or output says of it, whatever tensor a layout names. -/
def SizeField.port : SizeField → Port
  | .count n => ⟨n, none⟩
  | .buffer l => ⟨l.size, l.dtype⟩

theorem exists_read_of_isPort {t : Tree} {p : Port} (h : IsPort Settles t p) :
    ∃ f, SizeField.read t = .ok f ∧ f.port = p := by
  cases h with
  | @bare n h =>
      refine ⟨.count n, ?_, rfl⟩
      rw [SizeField.read, if_pos (settled_of_isWord h _), (Tree.reads_word.ok_iff t n).mpr h]
  | @layout l h hlimit =>
      -- A layout is only tried once a bare number was ruled out.
      have hword : t.word = .error .invalid := by
        refine (Tree.reads_word.eq_error_iff t _).mpr ⟨rfl, ?_⟩
        rintro ⟨n, hn⟩
        exact not_isWord_of_isLayout h n hn
      have hsettled : t.settled (Tree.nestingLimit - 1) = true := hlimit
      refine ⟨.buffer l, ?_, rfl⟩
      rw [SizeField.read, if_pos hsettled, hword, read_of_isLayout h]

theorem exists_given_of_isPort {field : Option Tree} {p : Port}
    (h : Tree.Given (IsPort Settles) field p) :
    ∃ f, Tree.Given (fun t f => SizeField.read t = .ok f) field f ∧ f.port = p := by
  obtain ⟨t, ht, hport⟩ := h
  obtain ⟨f, hread, hp⟩ := exists_read_of_isPort hport
  exact ⟨f, ⟨t, ht, hread⟩, hp⟩

/-- The input and the output are read as their elements and their label, and whatever
tensor they name is left out. -/
theorem ofSizeField_eq (key : String) (f : SizeField) :
    Descriptor.ofSizeField key f = ⟨key, f.port.elements, f.port.dtype, none⟩ := by
  cases f with
  | count n => rfl
  | buffer l => rfl

/-! ## Documents -/

namespace Document

/-- What a document says about its program, apart from the tag. -/
def description (doc : Document) : Description where
  input := doc.inputSize.port
  output := doc.outputSize.port
  buffers := doc.buffers
  kernels := doc.functions
  statements := doc.statements

/-- The fields of a document as far as they were seen. -/
def fieldsUpTo (d : Document) (seen : String → Bool) : Fields where
  backend := if seen "backend" then some d.backend else none
  inputSize := if seen "input_size" then some d.inputSize else none
  outputSize := if seen "output_size" then some d.outputSize else none
  functions := if seen "functions" then some d.functions else none
  statements := if seen "statements" then some d.statements else none
  buffers := if seen "buffers" then some d.buffers else none

theorem fieldwise (d : Document) :
    Tree.Fieldwise ["backend", "input_size", "output_size", "functions", "statements", "buffers"]
      step d.fieldsUpTo where
  nodup := by decide
  skip f name t hname := by
    simp only [List.mem_cons, List.not_mem_nil, or_false, not_or] at hname
    have hskip : step f name t = pure f := by simp [step, hname]
    exact hskip
  congr seen other h := by simp [fieldsUpTo, h]

end Document

theorem list_of_isStatement {t : Tree} {statements : List Statement}
    (h : Tree.IsList IsStatement t statements) :
    Tree.list Statement.read t = .ok statements := by
  obtain ⟨items, rfl, hitems⟩ := h
  exact Tree.list_array (mapM_eq_ok_iff.mpr (hitems.imp fun _ _ => read_of_isStatement))

/-- A document is read as its fields are, those of the input and the output included. -/
theorem ofTree_of_isRecord {given : String → Option Tree} {t : Tree} {doc : Document}
    (hrecord : Tree.IsRecord
      ["backend", "input_size", "output_size", "functions", "statements", "buffers"] given t)
    (hbackend : Tree.Given Tree.IsText (given "backend") doc.backend)
    (hin : Tree.Given (fun t f => SizeField.read t = .ok f) (given "input_size") doc.inputSize)
    (hout : Tree.Given (fun t f => SizeField.read t = .ok f) (given "output_size") doc.outputSize)
    (hfunctions : Tree.GivenOr .empty (Tree.IsTable Tree.IsText) (given "functions")
      doc.functions)
    (hstatements : Tree.GivenOr [] (Tree.IsList IsStatement) (given "statements") doc.statements)
    (hbuffers : Tree.GivenOr .empty (Tree.IsTable IsLayout) (given "buffers") doc.buffers) :
    Document.ofTree t = .ok doc := by
  refine Tree.record_of_isRecord doc.fieldwise hrecord ?_ ?_
  · intro name hname u hu seen hseen
    simp only [List.mem_cons, List.not_mem_nil, or_false] at hname
    rcases hname with rfl | rfl | rfl | rfl | rfl | rfl
    · have hread := (Tree.reads_text.ok_iff u _).mpr (hbackend.means hu)
      simp [Document.step, Document.fieldsUpTo, hseen, Tree.once_of_not_seen hread]
    · have hread := hin.means hu
      simp [Document.step, Document.fieldsUpTo, hseen, Tree.once_of_not_seen hread]
    · have hread := hout.means hu
      simp [Document.step, Document.fieldsUpTo, hseen, Tree.once_of_not_seen hread]
    · have hread := Tree.table_of_isTable (fun t s => (Tree.reads_text.ok_iff t s).mpr)
        (hfunctions.means hu)
      simp [Document.step, Document.fieldsUpTo, hseen, Tree.once_of_not_seen hread]
    · have hread := list_of_isStatement (hstatements.means hu)
      simp [Document.step, Document.fieldsUpTo, hseen, Tree.once_of_not_seen hread]
    · have hread := Tree.table_of_isTable (fun v l (h : IsLayout v l) => read_of_isLayout h)
        (hbuffers.means hu)
      simp [Document.step, Document.fieldsUpTo, hseen, Tree.once_of_not_seen hread]
  · simp only [Document.finish, Document.fieldsUpTo, hbackend.seen, hin.seen, hout.seen,
      hfunctions.seen, hstatements.seen, hbuffers.seen]
    rfl

theorem ofLayout_eq (key : String) (layout : Layout) :
    Descriptor.ofLayout key layout = ⟨key, layout.size, layout.dtype,
      if layout.id = "" then none else some layout.id⟩ := by
  simp only [Descriptor.ofLayout, String.isEmpty_iff]

/-- The program of a document is that of its description, with its own tag. -/
theorem ofDocument_eq (doc : Document) :
    ofDocument doc = { doc.description.program with backendTag := doc.backend } := by
  have hbuffers : doc.buffers.map Descriptor.ofLayout = doc.description.program.buffers :=
    congrArg (Table.map · doc.buffers)
      (funext fun key => funext fun layout => ofLayout_eq key layout)
  rw [ofDocument, ofSizeField_eq, ofSizeField_eq, hbuffers]
  rfl

theorem exists_read_of_isDescriptionFor {tag : String} {t : Tree} {d : Description}
    (h : IsDescriptionFor Settles tag t d) :
    ∃ doc, Document.ofTree t = .ok doc ∧ doc.backend = tag ∧ doc.description = d := by
  obtain ⟨given, hrecord, hbackend, hin, hout, hfunctions, hstatements, hbuffers⟩ := h
  obtain ⟨fin, hin, hinput⟩ := exists_given_of_isPort hin
  obtain ⟨fout, hout, houtput⟩ := exists_given_of_isPort hout
  refine ⟨⟨tag, fin, fout, d.kernels, d.statements, d.buffers⟩,
    ofTree_of_isRecord hrecord hbackend hin hout hfunctions hstatements hbuffers, rfl, ?_⟩
  rw [Document.description, hinput, houtput]

theorem exists_read_of_isDescription {t : Tree} {d : Description}
    (h : IsDescription Settles t d) : ∃ doc, Document.ofTree t = .ok doc ∧
      doc.backend = supportedTag ∧ ofDocument doc = d.program := by
  obtain ⟨doc, hread, hbackend, rfl⟩ := exists_read_of_isDescriptionFor h
  refine ⟨doc, hread, hbackend, ?_⟩
  rw [ofDocument_eq, hbackend]
  rfl

/-! ## Programs -/

theorem byteSize?_of_le {b : Descriptor} (h : b.elements.toNat ≤ Description.maxElements) :
    b.byteSize?.isNone = false := by
  have hmax : Description.maxElements = 4611686018427387903 := rfl
  have hfits : b.elements.toNat * Descriptor.elementBytes.toNat < UInt64.size := by
    show b.elements.toNat * 4 < 18446744073709551616
    omega
  rw [Descriptor.byteSize?, Word.mul?, if_pos hfits, Option.isNone_some]

theorem oversized?_program {d : Description} (hfits : d.Fits) : d.program.oversized? = none := by
  rw [oversized?, List.find?_eq_none]
  intro b hb
  rw [byteSize?_of_le, Bool.not_eq_true]
  rw [descriptors, List.mem_append, List.mem_cons, List.mem_singleton] at hb
  rcases hb with hb | rfl | rfl
  · rw [Description.program, Table.values, Table.toList_map, List.map_map, List.mem_map] at hb
    obtain ⟨⟨key, layout⟩, hmem, rfl⟩ := hb
    exact hfits.buffers key layout ((Table.mem_toList_iff _ _ _).mp hmem)
  · exact hfits.input
  · exact hfits.output

theorem ofBytes_of_isDescription {d : Description} (hfits : d.Fits) {t : Tree} {s : List UInt8}
    (hspelled : t.Spelled s) (h : IsDescription Settles t d) : ofBytes s = .ok d.program := by
  obtain ⟨doc, hread, hbackend, hprogram⟩ := exists_read_of_isDescription h
  rw [ofBytes, Document.read, document_of_spelled _ hspelled, hread]
  dsimp only
  rw [if_neg (not_not_intro hbackend), hprogram, oversized?_program hfits]

/-- A member of an unknown name, anywhere among the members of a document in any order,
does not change the program, whatever its value is. -/
theorem ofBytes_of_perm {d : Description} (hfits : d.Fits) {members others : List (RawText × Tree)}
    (h : IsDescription Settles (.object members true) d) {key : RawText} {name : String}
    (hkey : key.decode? = some name)
    (hname : name ∉
      ["backend", "input_size", "output_size", "functions", "statements", "buffers"])
    {unknown : Tree} (hperm : others.Perm ((key, unknown) :: members)) {s : List UInt8}
    (hspelled : (Tree.object others true).Spelled s) : ofBytes s = .ok d.program := by
  obtain ⟨given, hrecord, hfields⟩ := h
  exact ofBytes_of_isDescription hfits hspelled
    ⟨given, (hrecord.cons_unknown hkey hname unknown).of_perm hperm, hfields⟩

/-- Every description of a size that fits has a rendering, and each of its renderings is
read as its program. -/
theorem ofBytes_of_renders {d : Description} (hfits : d.Fits) :
    (∃ s, d.Renders Settles s) ∧ ∀ s, d.Renders Settles s → ofBytes s = .ok d.program := by
  refine ⟨d.exists_rendersFor supportedTag, ?_⟩
  rintro s ⟨t, hspelled, hdescription⟩
  exact ofBytes_of_isDescription hfits hspelled hdescription

/-- A document with members in an unusual order and among unknown ones, with an escape
and with blanks, and with records given by position. -/
def sampleText : List UInt8 :=
  ("\x7b \"x\":[1e400],\"buffers\":\x7b\"w\":[2,null,\"a\"],\"h\":\x7b\"id\":\"\",\"x\":\x7b\x7d,\"size\":3" ++
    "\x7d\x7d,\n\"statements\":[[\"k\",[\"w\",\"h\"],[4,1]]],\"backend\":\"\\u0047PU\"," ++
    "\"output_size\":\x7b\"dtype\":\"f32\",\"size\":3\x7d,\"input_size\" : 2\x7d\t").toUTF8.toList

/-- A size of one digit as a value. -/
def digitValue (d : Nat) : Tree := .number ⟨false, [d], none, none⟩

def sampleBuffers : Tree :=
  .object (Tree.membersOf
    [("w", .array [digitValue 2, .null, .ofText "a"] true),
      ("h", .object (Tree.membersOf
        [("id", .ofText ""), ("x", .object [] true), ("size", digitValue 3)]) true)]) true

def sampleStatement : Tree :=
  .array [.ofText "k", listValue .ofText ["w", "h"], listValue digitValue [4, 1]] true

def sampleOutput : Tree :=
  .object (Tree.membersOf [("dtype", .ofText "f32"), ("size", digitValue 3)]) true

/-- A number beyond the doubles. -/
def hugeValue : Tree := .number ⟨false, [1], none, some 400⟩

def sampleTree : Tree :=
  .object (Tree.membersOf
    [("x", .array [hugeValue] true), ("buffers", sampleBuffers),
      ("statements", .array [sampleStatement] true),
      ("backend", .string [.unit 0x47, .byte 0x50, .byte 0x55]), ("output_size", sampleOutput),
      ("input_size", digitValue 2)]) true

def sampleDescription : Description where
  input := ⟨2, none⟩
  output := ⟨3, some "f32"⟩
  buffers := Table.ofList [("w", ⟨2, none, "a"⟩), ("h", ⟨3, none, ""⟩)]
  kernels := .empty
  statements := [⟨"k", ["w", "h"], [4, 1], []⟩]

theorem isTable_sampleBuffers :
    Tree.IsTable IsLayout sampleBuffers sampleDescription.buffers := by
  refine ⟨_, _, rfl, .cons ⟨RawText.decode?_ofString "w", ?_⟩
    (.cons ⟨RawText.decode?_ofString "h", ?_⟩ .nil), rfl⟩
  · exact ⟨_, Tree.isRecord_items (by decide) (by decide), ⟨_, rfl, [2], rfl, rfl⟩,
      Or.inr ⟨_, rfl, .null⟩, Or.inr ⟨_, rfl, Tree.isText_ofText "a"⟩⟩
  · exact ⟨_, Tree.isRecord_membersOf _ (by simp), ⟨_, rfl, [3], rfl, rfl⟩, Or.inl ⟨rfl, rfl⟩,
      Or.inr ⟨_, rfl, Tree.isText_ofText ""⟩⟩

theorem isStatement_sampleStatement :
    IsStatement sampleStatement ⟨"k", ["w", "h"], [4, 1], []⟩ :=
  ⟨_, Tree.isRecord_items (by decide) (by decide), ⟨_, rfl, Tree.isText_ofText "k"⟩,
    ⟨_, rfl, isList_listValue Tree.isText_ofText _⟩,
    ⟨_, rfl, _, rfl, .cons ⟨[4], rfl, rfl⟩ (.cons ⟨[1], rfl, rfl⟩ .nil)⟩, Or.inl ⟨rfl, rfl⟩⟩

theorem isPort_sampleOutput : IsPort Settles sampleOutput ⟨3, some "f32"⟩ := by
  have hsettled : sampleOutput.settled innerNesting = true := by decide +kernel
  refine .layout (l := ⟨3, some "f32", ""⟩) ?_ hsettled
  exact ⟨_, Tree.isRecord_membersOf _ (by simp), ⟨_, rfl, [3], rfl, rfl⟩,
    Or.inr ⟨_, rfl, .value (fun h => by cases h) (Tree.isText_ofText "f32")⟩, Or.inl ⟨rfl, rfl⟩⟩

theorem whole_sampleTree : sampleTree.Whole := by
  have hbuffers : sampleBuffers.settled 3 = true := by decide +kernel
  have hstatement : sampleStatement.settled 2 = true := by decide +kernel
  have houtput : sampleOutput.settled 1 = true := by decide +kernel
  refine Tree.whole_membersOf ?_
  simp only [List.forall_mem_cons]
  exact ⟨.array _ (List.forall_mem_singleton.mpr (.number _)), whole_of_settled hbuffers,
    .array _ (List.forall_mem_singleton.mpr (whole_of_settled hstatement)), .string _,
    whole_of_settled houtput, .number _, List.forall_mem_nil _⟩

theorem renders_sampleText : sampleDescription.Renders Settles sampleText := by
  have htokens : tokens sampleText = sampleTree.tokens := by decide +kernel
  refine ⟨sampleTree, spelled_of_tokens_eq whole_sampleTree htokens, ?_⟩
  exact ⟨_, Tree.isRecord_membersOf _ (by simp), ⟨_, rfl, _, rfl, by decide +kernel⟩,
    ⟨_, rfl, .bare ⟨[2], rfl, rfl⟩⟩, ⟨_, rfl, isPort_sampleOutput⟩, Or.inl ⟨rfl, rfl⟩,
    Or.inr ⟨_, rfl, _, rfl, .cons isStatement_sampleStatement .nil⟩,
    Or.inr ⟨_, rfl, isTable_sampleBuffers⟩⟩

theorem ofBytes_of_renders_sampleText :
    sampleDescription.Fits ∧ sampleDescription.Renders Settles sampleText ∧
      ofBytes sampleText = .ok sampleDescription.program := by
  have hlist : sampleDescription.buffers.toList = [("h", ⟨3, none, ""⟩), ("w", ⟨2, none, "a"⟩)] := by
    decide +kernel
  have hfits : sampleDescription.Fits := by
    refine ⟨by decide, by decide, fun key layout hget => ?_⟩
    have hmem := (Table.mem_toList_iff _ _ _).mpr hget
    rw [hlist, List.mem_cons, List.mem_singleton, Prod.mk.injEq, Prod.mk.injEq] at hmem
    rcases hmem with ⟨-, rfl⟩ | ⟨-, rfl⟩
    · decide
    · decide
  exact ⟨hfits, renders_sampleText, (ofBytes_of_renders hfits).2 _ renders_sampleText⟩

/-- No more than `room` containers of the value are open at a time, whatever else it
holds. -/
inductive NestsWithin : Nat → Tree → Prop
  | null (room : Nat) : NestsWithin room .null
  | bool (room : Nat) (b : Bool) : NestsWithin room (.bool b)
  | number (room : Nat) (n : Numeral) : NestsWithin room (.number n)
  | string (room : Nat) (t : RawText) : NestsWithin room (.string t)
  | array (room : Nat) (items : List Tree) (whole : Bool) (h : ∀ t ∈ items, NestsWithin room t) :
    NestsWithin (room + 1) (.array items whole)
  | object (room : Nat) (members : List (RawText × Tree)) (whole : Bool)
    (h : ∀ m ∈ members, NestsWithin room m.2) : NestsWithin (room + 1) (.object members whole)

/-- A document whose input is a layout with an unknown member beyond the doubles. -/
def unsettledText : List UInt8 :=
  ("\x7b\"backend\":\"GPU\",\"input_size\":\x7b\"size\":1,\"x\":1e400\x7d," ++
    "\"output_size\":1\x7d").toUTF8.toList

def unsettledInput : Tree :=
  .object (Tree.membersOf [("size", digitValue 1), ("x", hugeValue)]) true

def unsettledTree : Tree :=
  .object (Tree.membersOf [("backend", .ofText "GPU"), ("input_size", unsettledInput),
    ("output_size", digitValue 1)]) true

def unsettledDescription : Description where
  input := ⟨1, none⟩
  output := ⟨1, none⟩
  buffers := .empty
  kernels := .empty
  statements := []

theorem isPort_unsettledInput :
    IsPort (NestsWithin innerNesting) unsettledInput ⟨1, none⟩ := by
  refine .layout (l := ⟨1, none, ""⟩) ?_ (.object 125 _ _ fun m hm => ?_)
  · exact ⟨_, Tree.isRecord_membersOf _ (by simp), ⟨_, rfl, [1], rfl, rfl⟩, Or.inl ⟨rfl, rfl⟩,
      Or.inl ⟨rfl, rfl⟩⟩
  · simp only [Tree.membersOf, List.map_cons, List.map_nil, List.mem_cons, List.not_mem_nil,
      or_false] at hm
    rcases hm with rfl | rfl
    · exact .number _ _
    · exact .number _ _

theorem renders_unsettledText :
    unsettledDescription.Renders (NestsWithin innerNesting) unsettledText := by
  have htokens : tokens unsettledText = unsettledTree.tokens := by decide +kernel
  have hwhole : unsettledTree.Whole := by
    refine Tree.whole_membersOf ?_
    simp only [List.forall_mem_cons]
    refine ⟨.string _, Tree.whole_membersOf ?_, .number _, List.forall_mem_nil _⟩
    simp only [List.forall_mem_cons]
    exact ⟨.number _, .number _, List.forall_mem_nil _⟩
  refine ⟨unsettledTree, spelled_of_tokens_eq hwhole htokens, ?_⟩
  exact ⟨_, Tree.isRecord_membersOf _ (by simp), ⟨_, rfl, Tree.isText_ofText "GPU"⟩,
    ⟨_, rfl, isPort_unsettledInput⟩, ⟨_, rfl, .bare ⟨[1], rfl, rfl⟩⟩, Or.inl ⟨rfl, rfl⟩,
    Or.inl ⟨rfl, rfl⟩, Or.inl ⟨rfl, rfl⟩⟩

/-- It is not enough that a layout that stands for the input is not nested too deep. -/
theorem not_forall_ofBytes_of_renders :
    ¬ ∀ (d : Description) (s : List UInt8), d.Fits → d.Renders (NestsWithin innerNesting) s →
      ofBytes s = .ok d.program := by
  intro h
  have hfits : unsettledDescription.Fits :=
    ⟨by decide, by decide, fun key layout hget => by cases hget⟩
  have hread := h unsettledDescription unsettledText hfits renders_unsettledText
  have herror : ofBytes unsettledText = .error (.malformedProgram (.unreadable .invalid)) := by
    decide +kernel
  rw [herror] at hread
  cases hread

end Program

end NetReplay
