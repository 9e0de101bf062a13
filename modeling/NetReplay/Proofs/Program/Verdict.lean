import NetReplay.Proofs.Program.Described

/-!
# Which defect of a document is reported

A document may have several defects at once, and one of them is reported. A text that
renders no description is unreadable, whatever its tag would be. One that does is judged
by its tag first. The sizes come last, in the order of the buffers and not in that of the
document (`Description.sizes`), and the first that is too large is named. Nothing else is
asked of a description (`ofBytes_verdict`).

Sizes are read off the description, so the search among the buffers of the program is
first carried over to them (`map_oversized?`).
-/

namespace NetReplay

open Json

namespace Program

/-- The elements of all buffers, under their keys: the declared ones in the order of
their keys, then the input, then the output. -/
def Description.sizes (d : Description) : List (String × UInt64) :=
  (d.buffers.toList.map fun e => (e.1, e.2.size)) ++
    [("input", d.input.elements), ("outputs", d.output.elements)]

/-- At four bytes each, so many elements have more bytes than a word counts. -/
def Overflows (n : UInt64) : Prop := Nat.pow 2 64 - 1 < n.toNat * 4

instance : DecidablePred Overflows := fun _ => Nat.decLt ..

theorem byteSize?_eq_none_iff (b : Descriptor) : b.byteSize? = none ↔ Overflows b.elements := by
  rw [Descriptor.byteSize?, Word.mul?_eq_none_iff]
  exact Nat.succ_le_iff

/-- The buffers of a program are those of its description. -/
theorem map_descriptors (doc : Document) :
    (ofDocument doc).descriptors.map (fun b => (b.key, b.elements)) =
      doc.description.sizes := by
  rw [ofDocument_eq, descriptors, List.map_append, Table.values, Description.program,
    Table.toList_map, List.map_map, List.map_map]
  rfl

/-- The first buffer whose bytes cannot be counted is found among the sizes. -/
theorem map_oversized? (doc : Document) :
    (ofDocument doc).oversized?.map (fun b => (b.key, b.elements)) =
      doc.description.sizes.find? fun e => Overflows e.2 := by
  have hnone : ∀ b : Descriptor, b.byteSize?.isNone = decide (Overflows b.elements) := fun b => by
    rw [Bool.eq_iff_iff, Option.isNone_iff_eq_none, byteSize?_eq_none_iff, decide_eq_true_iff]
  rw [← map_descriptors, List.find?_map, oversized?]
  simp only [hnone]
  rfl

section

variable {doc : Document} {s : List UInt8}

theorem ofBytes_of_tag_ne (hread : Document.read s = .ok doc) (htag : doc.backend ≠ supportedTag) :
    ofBytes s = .error (.unsupportedBackend doc.backend) := by
  rw [ofBytes, hread]
  exact if_pos htag

theorem ofBytes_of_oversized (hread : Document.read s = .ok doc)
    (htag : doc.backend = supportedTag) {front back : List (String × UInt64)} {key : String}
    {n : UInt64} (hsizes : doc.description.sizes = front ++ (key, n) :: back)
    (hfront : ∀ e ∈ front, ¬ Overflows e.2) (hover : Overflows n) :
    ofBytes s = .error (.malformedProgram (.oversizedBuffer key n)) := by
  have hfind : doc.description.sizes.find? (fun e => Overflows e.2) = some (key, n) := by
    refine List.find?_eq_some_iff_append.mpr ⟨decide_eq_true hover, front, back, hsizes, ?_⟩
    intro e he
    rw [Bool.not_eq_true', decide_eq_false_iff_not]
    exact hfront e he
  rw [← map_oversized?, Option.map_eq_some_iff] at hfind
  obtain ⟨b, hb, hkey⟩ := hfind
  cases hkey
  rw [ofBytes, hread]
  dsimp only
  rw [if_neg (not_not_intro htag), hb]

theorem ofBytes_of_fits (hread : Document.read s = .ok doc)
    (htag : doc.backend = supportedTag) (hfits : ∀ e ∈ doc.description.sizes, ¬ Overflows e.2) :
    ofBytes s = .ok doc.description.program := by
  have hfind : doc.description.sizes.find? (fun e => Overflows e.2) = none := by
    rw [List.find?_eq_none]
    intro e he
    rw [decide_eq_true_iff]
    exact hfits e he
  rw [← map_oversized?, Option.map_eq_none_iff] at hfind
  rw [ofBytes, hread]
  dsimp only
  rw [if_neg (not_not_intro htag), hfind, ofDocument_eq, htag]
  rfl

end

/-- What is reported of any text. The first defect that it has counts, of these: it
renders no description, its tag is another, a size is too large. Among the sizes the
first in order counts. The tag is given literally, and the message names the buffer.
Neither the references of the statements nor the number and values of their sizes matter,
as the description is any. -/
theorem ofBytes_verdict (s : List UInt8) :
    ((¬ ∃ tag d, Description.RendersFor Settles tag d s) →
      ∃ cause, ofBytes s = .error (.malformedProgram (.unreadable cause))) ∧
    ∀ tag d, Description.RendersFor Settles tag d s →
      (d.buffers.keys.Pairwise fun j k => j.toUTF8.toList < k.toUTF8.toList) ∧
      (tag ≠ "GPU" → ofBytes s = .error (.unsupportedBackend tag)) ∧
      (tag = "GPU" →
        (∀ front key n back, d.sizes = front ++ (key, n) :: back →
          (∀ e ∈ front, ¬ Overflows e.2) → Overflows n →
            ofBytes s = .error (.malformedProgram (.oversizedBuffer key n)) ∧
              (ProgramFault.oversizedBuffer key n).message =
                s!"buffer `{key}` declares {n} elements, which overflows the addressable size") ∧
        ((∀ e ∈ d.sizes, ¬ Overflows e.2) → ofBytes s = .ok d.program)) := by
  constructor
  · intro hnot
    cases hread : Document.read s with
    | error cause => exact ⟨cause, by rw [ofBytes, hread]⟩
    | ok doc => exact absurd ⟨_, _, Description.rendersFor_iff.mpr ⟨doc, hread, rfl, rfl⟩⟩ hnot
  · intro tag d hrenders
    obtain ⟨doc, hread, rfl, rfl⟩ := Description.rendersFor_iff.mp hrenders
    refine ⟨Table.pairwise_utf8_keys _, ofBytes_of_tag_ne hread, fun htag => ⟨?_, ?_⟩⟩
    · intro front key n back hsizes hfront hover
      exact ⟨ofBytes_of_oversized hread htag hsizes hfront hover, rfl⟩
    · exact ofBytes_of_fits hread htag

/-- A description with a buffer that fits, two that do not, an output that does not, and a
statement with four sizes that refers to nothing. -/
def overfilled : Description where
  input := ⟨0, none⟩
  output := ⟨4611686018427387905, none⟩
  buffers := .ofList [("z", ⟨18446744073709551615, none, ""⟩),
    ("b", ⟨4611686018427387904, none, ""⟩), ("a", ⟨4611686018427387903, none, ""⟩)]
  kernels := .empty
  statements := [⟨"missing", ["nowhere"], [0, 1, 2, 3], []⟩]

theorem ofBytes_verdict_overfilled :
    (∃ s, overfilled.RendersFor Settles "GPU" s ∧
      ofBytes s = .error (.malformedProgram (.oversizedBuffer "b" 4611686018427387904))) ∧
    ∃ s, overfilled.RendersFor Settles "CPU" s ∧
      ofBytes s = .error (.unsupportedBackend "CPU") := by
  have hsizes : overfilled.sizes = [("a", 4611686018427387903)] ++ ("b", 4611686018427387904) ::
      [("z", 18446744073709551615), ("input", 0), ("outputs", 4611686018427387905)] := by
    decide +kernel
  constructor
  · obtain ⟨s, hs⟩ := overfilled.exists_rendersFor "GPU"
    obtain ⟨-, -, hgpu⟩ := (ofBytes_verdict s).2 "GPU" overfilled hs
    exact ⟨s, hs, ((hgpu rfl).1 _ _ _ _ hsizes (by decide) (by decide)).1⟩
  · obtain ⟨s, hs⟩ := overfilled.exists_rendersFor "CPU"
    obtain ⟨-, hcpu, -⟩ := (ofBytes_verdict s).2 "CPU" overfilled hs
    exact ⟨s, hs, hcpu (by decide)⟩

-- Neither the order of the document nor what stands in its statement shows.
example : ofBytes
    ("\x7b\"output_size\":4611686018427387905,\"buffers\":\x7b\"z\":[4611686018427387904]," ++
      "\"b\":[4611686018427387904]\x7d,\"statements\":[[\"k\",[\"w\"],[0,1,2,3]]]," ++
      "\"input_size\":0,\"backend\":\"GPU\"\x7d").toUTF8.toList =
    .error (.malformedProgram (.oversizedBuffer "b" 4611686018427387904)) := by
  decide +kernel

end Program

end NetReplay
