import NetReplay.Proofs.Json.Collecting
import NetReplay.Proofs.Program.Decoding

/-!
# Documents are read as what they describe

Whatever is read as a layout, a statement or a document is one: it describes the data that
it was read as (`isLayout_of_read`, `isStatement_of_read`,
`Document.isDescriptionFor_of_ofTree`). The fields are collected one by one
(`Tree.Collects`), so it shows for one field at a time.

With the lemmas of the other direction, a document is read on the texts that render a
description, for runtimes of any tag, and on no others (`Description.rendersFor_iff`).
-/

namespace NetReplay

open Json

namespace Program

/-! ## Layouts -/

theorem isText_of_text {t : Tree} {s : String} (h : t.text = .ok s) : t.IsText s :=
  (Tree.reads_text.ok_iff t s).mp h

theorem isWord_of_word {t : Tree} {n : UInt64} (h : t.word = .ok n) : t.IsWord n :=
  (Tree.reads_word.ok_iff t n).mp h

/-- What was kept of the fields of a layout is what was given. -/
structure Layout.Holds (given : String → Option Tree) (f : Layout.Fields) : Prop where
  size : Option.Rel Tree.IsWord (given "size") f.size
  dtype : Option.Rel (Tree.IsNullable Tree.IsText) (given "dtype") f.dtype
  id : Option.Rel Tree.IsText (given "id") f.id

theorem collects_layout : Tree.Collects ["size", "dtype", "id"] {} Layout.step Layout.Holds where
  nodup := by decide
  start := ⟨.none, .none, .none⟩
  skip := (fieldwise_layout default).skip
  take given f name t next hname h hstep := by
    simp only [List.mem_cons, List.not_mem_nil, or_false] at hname
    -- The names differ, so of the other fields the same is kept.
    rcases hname with rfl | rfl | rfl
    · obtain ⟨hnone, size, hsize, rfl⟩ := Tree.rel_of_once (fun _ _ => isWord_of_word) h.size hstep
      exact ⟨hnone, { h with size := hsize }⟩
    · obtain ⟨hnone, dtype, hdtype, rfl⟩ := Tree.rel_of_once
        (fun _ _ => Tree.isNullable_of_nullable fun _ _ => isText_of_text) h.dtype hstep
      exact ⟨hnone, { h with dtype := hdtype }⟩
    · obtain ⟨hnone, id, hid, rfl⟩ := Tree.rel_of_once (fun _ _ => isText_of_text) h.id hstep
      exact ⟨hnone, { h with id := hid }⟩

theorem isLayout_of_read {t : Tree} {l : Layout} (h : Layout.read t = .ok l) : IsLayout t l := by
  obtain ⟨given, f, hrecord, hholds, hfinish⟩ := collects_layout.exists_isRecord h
  obtain ⟨size, hsize, hl⟩ := bind_eq_ok_iff.mp hfinish
  cases hl
  exact ⟨given, hrecord, Tree.given_of_required hholds.size hsize,
    Tree.givenOr_getD hholds.dtype none, Tree.givenOr_getD hholds.id ""⟩

/-! ## Statements -/

/-- What was kept of the fields of a statement is what was given. -/
structure Statement.Holds (given : String → Option Tree) (f : Statement.Fields) : Prop where
  kernel : Option.Rel Tree.IsText (given "kernel") f.kernel
  args : Option.Rel (Tree.IsList Tree.IsText) (given "args") f.args
  globalSize : Option.Rel (Tree.IsList Tree.IsWord) (given "global_size") f.globalSize
  localSize : Option.Rel (Tree.IsList Tree.IsWord) (given "local_size") f.localSize

theorem collects_statement :
    Tree.Collects ["kernel", "args", "global_size", "local_size"] {} Statement.step
      Statement.Holds where
  nodup := by decide
  start := ⟨.none, .none, .none, .none⟩
  skip := (fieldwise_statement default).skip
  take given f name t next hname h hstep := by
    simp only [List.mem_cons, List.not_mem_nil, or_false] at hname
    have hwords : ∀ t l, Tree.list Tree.word t = .ok l → Tree.IsList Tree.IsWord t l :=
      fun t l => (Tree.reads_word.list.ok_iff t l).mp
    have htexts : ∀ t l, Tree.list Tree.text t = .ok l → Tree.IsList Tree.IsText t l :=
      fun t l => (Tree.reads_text.list.ok_iff t l).mp
    rcases hname with rfl | rfl | rfl | rfl
    · obtain ⟨hnone, kernel, hkernel, rfl⟩ :=
        Tree.rel_of_once (fun _ _ => isText_of_text) h.kernel hstep
      exact ⟨hnone, { h with kernel := hkernel }⟩
    · obtain ⟨hnone, args, hargs, rfl⟩ := Tree.rel_of_once htexts h.args hstep
      exact ⟨hnone, { h with args := hargs }⟩
    · obtain ⟨hnone, sizes, hsizes, rfl⟩ := Tree.rel_of_once hwords h.globalSize hstep
      exact ⟨hnone, { h with globalSize := hsizes }⟩
    · obtain ⟨hnone, sizes, hsizes, rfl⟩ := Tree.rel_of_once hwords h.localSize hstep
      exact ⟨hnone, { h with localSize := hsizes }⟩

theorem isStatement_of_read {t : Tree} {s : Statement} (h : Statement.read t = .ok s) :
    IsStatement t s := by
  obtain ⟨given, f, hrecord, hholds, hfinish⟩ := collects_statement.exists_isRecord h
  obtain ⟨kernel, hkernel, hfinish⟩ := bind_eq_ok_iff.mp hfinish
  obtain ⟨args, hargs, hfinish⟩ := bind_eq_ok_iff.mp hfinish
  obtain ⟨sizes, hsizes, hs⟩ := bind_eq_ok_iff.mp hfinish
  cases hs
  exact ⟨given, hrecord, Tree.given_of_required hholds.kernel hkernel,
    Tree.given_of_required hholds.args hargs, Tree.given_of_required hholds.globalSize hsizes,
    Tree.givenOr_getD hholds.localSize []⟩

/-! ## Input and output -/

theorem isPort_of_read {t : Tree} {f : SizeField} (h : SizeField.read t = .ok f) :
    IsPort Settles t f.port := by
  rw [SizeField.read] at h
  split at h
  · rename_i hsettled
    cases hword : t.word with
    | ok n =>
        rw [hword] at h
        cases h
        exact .bare (isWord_of_word hword)
    | error cause =>
        rw [hword] at h
        cases hlayout : Layout.read t with
        | ok l =>
            rw [hlayout] at h
            cases h
            exact .layout (isLayout_of_read hlayout) hsettled
        | error cause =>
            rw [hlayout] at h
            cases h
  · cases h

theorem given_isPort_of_read {field : Option Tree} {f : SizeField}
    (h : Tree.Given (fun t f => SizeField.read t = .ok f) field f) :
    Tree.Given (IsPort Settles) field f.port := by
  obtain ⟨t, ht, hread⟩ := h
  exact ⟨t, ht, isPort_of_read hread⟩

/-! ## Documents -/

namespace Document

/-- What was kept of the fields of a document is what was given. -/
structure Holds (given : String → Option Tree) (f : Fields) : Prop where
  backend : Option.Rel Tree.IsText (given "backend") f.backend
  inputSize : Option.Rel (fun t f => SizeField.read t = .ok f) (given "input_size") f.inputSize
  outputSize : Option.Rel (fun t f => SizeField.read t = .ok f) (given "output_size") f.outputSize
  functions : Option.Rel (Tree.IsTable Tree.IsText) (given "functions") f.functions
  statements : Option.Rel (Tree.IsList IsStatement) (given "statements") f.statements
  buffers : Option.Rel (Tree.IsTable IsLayout) (given "buffers") f.buffers

theorem collects :
    Tree.Collects ["backend", "input_size", "output_size", "functions", "statements", "buffers"]
      {} step Holds where
  nodup := by decide
  start := ⟨.none, .none, .none, .none, .none, .none⟩
  skip := (fieldwise ⟨"", default, default, .empty, [], .empty⟩).skip
  take given f name t next hname h hstep := by
    simp only [List.mem_cons, List.not_mem_nil, or_false] at hname
    rcases hname with rfl | rfl | rfl | rfl | rfl | rfl
    · obtain ⟨hnone, backend, hbackend, rfl⟩ :=
        Tree.rel_of_once (fun _ _ => isText_of_text) h.backend hstep
      exact ⟨hnone, { h with backend := hbackend }⟩
    · obtain ⟨hnone, size, hsize, rfl⟩ :=
        Tree.rel_of_once (fun _ _ hread => hread) h.inputSize hstep
      exact ⟨hnone, { h with inputSize := hsize }⟩
    · obtain ⟨hnone, size, hsize, rfl⟩ :=
        Tree.rel_of_once (fun _ _ hread => hread) h.outputSize hstep
      exact ⟨hnone, { h with outputSize := hsize }⟩
    · obtain ⟨hnone, functions, hfunctions, rfl⟩ := Tree.rel_of_once
        (fun _ _ => Tree.isTable_of_table fun _ _ => isText_of_text) h.functions hstep
      exact ⟨hnone, { h with functions := hfunctions }⟩
    · obtain ⟨hnone, statements, hstatements, rfl⟩ := Tree.rel_of_once
        (fun _ _ => Tree.isList_of_list fun _ _ => isStatement_of_read) h.statements hstep
      exact ⟨hnone, { h with statements := hstatements }⟩
    · obtain ⟨hnone, buffers, hbuffers, rfl⟩ := Tree.rel_of_once
        (fun _ _ => Tree.isTable_of_table fun _ _ => isLayout_of_read) h.buffers hstep
      exact ⟨hnone, { h with buffers := hbuffers }⟩

theorem isDescriptionFor_of_ofTree {t : Tree} {doc : Document} (h : ofTree t = .ok doc) :
    IsDescriptionFor Settles doc.backend t doc.description := by
  obtain ⟨given, f, hrecord, hholds, hfinish⟩ := collects.exists_isRecord h
  obtain ⟨backend, hbackend, hfinish⟩ := bind_eq_ok_iff.mp hfinish
  obtain ⟨fin, hin, hfinish⟩ := bind_eq_ok_iff.mp hfinish
  obtain ⟨fout, hout, hdoc⟩ := bind_eq_ok_iff.mp hfinish
  cases hdoc
  exact ⟨given, hrecord, Tree.given_of_required hholds.backend hbackend,
    given_isPort_of_read (Tree.given_of_required hholds.inputSize hin),
    given_isPort_of_read (Tree.given_of_required hholds.outputSize hout),
    Tree.givenOr_getD hholds.functions .empty, Tree.givenOr_getD hholds.statements [],
    Tree.givenOr_getD hholds.buffers .empty⟩

end Document

/-- A value is a document of the tag and the description that it is read as. -/
theorem isDescriptionFor_iff {tag : String} {t : Tree} {d : Description} :
    IsDescriptionFor Settles tag t d ↔
      ∃ doc, Document.ofTree t = .ok doc ∧ doc.backend = tag ∧ doc.description = d := by
  refine ⟨exists_read_of_isDescriptionFor, ?_⟩
  rintro ⟨doc, hread, rfl, rfl⟩
  exact Document.isDescriptionFor_of_ofTree hread

/-- A text renders the tag and the description that it is read as, and no other. -/
theorem Description.rendersFor_iff {tag : String} {d : Description} {s : List UInt8} :
    d.RendersFor Settles tag s ↔
      ∃ doc, Document.read s = .ok doc ∧ doc.backend = tag ∧ doc.description = d := by
  have hread := document_eq_ok_iff_of_finished
    (fun t (doc : Document) (h : Document.ofTree t = .ok doc) => Tree.not_unfinished_of_record h) s
  constructor
  · rintro ⟨t, hspelled, ht⟩
    obtain ⟨doc, hdoc, htag, hd⟩ := isDescriptionFor_iff.mp ht
    exact ⟨doc, (hread doc).mpr ⟨t, hspelled, hdoc⟩, htag, hd⟩
  · rintro ⟨doc, hdoc, htag, hd⟩
    obtain ⟨t, hspelled, ht⟩ := (hread doc).mp hdoc
    exact ⟨t, hspelled, isDescriptionFor_iff.mpr ⟨doc, ht, htag, hd⟩⟩

end Program

end NetReplay
