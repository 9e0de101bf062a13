import Mathlib.Logic.Relation
import NetReplay.Proofs.Weights.Frame

/-!
# Other spellings of a header

A header can be written in many ways. Its members, those of an entry and those of
the metadata may come in another order, a member may be overridden by a later one
of its name (`Tree.Rearranged`, which brings members of different names into any
order, `Tree.rearranged_of_perm`), an entry may have fields that nobody asks for, and
it may be an array of its fields (`Entry.Respelled`). Between the tokens there may
be any blanks.

What a member says is the same in every spelling: `Entry.sense` reads an entry off
the last members of its names, so it sees neither order nor what is overridden.
One change keeps what the members of the header say (`Header.Respelled.sameSense`),
hence any number of them does, and the container is read the same
(`Store.ofBytes_respelled`).
-/

namespace NetReplay

namespace Json

namespace Tree

/-- Members that are written in another way: two neighbours of different names are
swapped, or a member is put in that a later one of its name overrides. -/
inductive Rearranged : List (RawText × Tree) → List (RawText × Tree) → Prop where
  | swap {front back : List (RawText × Tree)} {m n : RawText × Tree}
    (h : m.1.decode? ≠ n.1.decode?) :
    Rearranged (front ++ m :: n :: back) (front ++ n :: m :: back)
  | overridden {front middle back : List (RawText × Tree)} {m n : RawText × Tree}
    (h : m.1.decode? = n.1.decode?) :
    Rearranged (front ++ (middle ++ n :: back)) (front ++ m :: (middle ++ n :: back))

theorem Rearranged.cons {members others : List (RawText × Tree)} (m : RawText × Tree)
    (h : Rearranged members others) : Rearranged (m :: members) (m :: others) := by
  cases h with
  | @swap front back n k h => exact @swap (m :: front) back n k h
  | @overridden front middle back n k h => exact @overridden (m :: front) middle back n k h

/-- Swapping neighbours brings members of different names into any order. -/
theorem rearranged_of_perm {members others : List (RawText × Tree)} (h : members.Perm others)
    (hnames : (members.map fun m => m.1.decode?).Nodup) :
    Relation.ReflTransGen Rearranged members others := by
  induction h with
  | nil => exact .refl
  | cons m _ ih =>
      rw [List.map_cons, List.nodup_cons] at hnames
      exact (ih hnames.2).lift (m :: ·) fun _ _ hstep => hstep.cons m
  | swap n m rest =>
      have hne : m.1.decode? ≠ n.1.decode? := by
        simp only [List.map_cons, List.nodup_cons, List.mem_cons, not_or] at hnames
        exact hnames.1.1
      exact .single (@Rearranged.swap [] rest m n hne)
  | trans h _ ih ih' =>
      exact (ih hnames).trans (ih' ((h.map _).nodup_iff.mp hnames))

/-- Rearranged members have the same last member of each name. -/
theorem Rearranged.lastNamed?_eq {members others : List (RawText × Tree)}
    (h : Rearranged members others) (name : String) :
    lastNamed? others name = lastNamed? members name := by
  cases h with
  | @swap front back m n h =>
      obtain ⟨key, t⟩ := m
      obtain ⟨other, u⟩ := n
      simp only [lastNamed?_append, lastNamed?_cons]
      by_cases hkey : key.decode? = some name
      · have hother : other.decode? ≠ some name := fun heq => h (hkey.trans heq.symm)
        rw [if_neg hother, Option.or_none, Option.or_none]
      · rw [if_neg hkey, Option.or_none, Option.or_none]
  | @overridden front middle back m n h =>
      obtain ⟨key, t⟩ := m
      obtain ⟨other, u⟩ := n
      simp only [lastNamed?_append, lastNamed?_cons]
      by_cases hkey : key.decode? = some name
      · have hother : other.decode? = some name := h.symm.trans hkey
        simp [hkey, hother]
      · rw [if_neg hkey, Option.or_none]

end Tree

end Json

namespace Weights

open Json

/-! ## Entries -/

namespace Entry

/-- An entry that is written in another way: its members are rearranged, it gets a
field that is none of an entry, or it becomes the array of its fields. -/
inductive Respelled : Tree → Tree → Prop where
  | members {members others : List (RawText × Tree)} (h : Tree.Rearranged members others) :
    Respelled (.object members true) (.object others true)
  | unknown {front back : List (RawText × Tree)} {key : RawText} {t : Tree}
    (hdtype : key.decode? ≠ some "dtype") (hshape : key.decode? ≠ some "shape")
    (hoffsets : key.decode? ≠ some "data_offsets") :
    Respelled (.object (front ++ back) true) (.object (front ++ (key, t) :: back) true)
  | positional {members : List (RawText × Tree)} {dtype shape offsets : Tree}
    (hdtype : Tree.lastNamed? members "dtype" = some dtype)
    (hshape : Tree.lastNamed? members "shape" = some shape)
    (hoffsets : Tree.lastNamed? members "data_offsets" = some offsets) :
    Respelled (.object members true) (.array [dtype, shape, offsets] true)

/-- What an entry says, read off the last members of its names. -/
def sense : Tree → Decoded Entry
  | .object members _ => readNamed members
  | t => read t

theorem read_eq_sense {room : Nat} {t : Tree} (hsettled : t.settled room = true) :
    read t = sense t := by
  cases t with
  | object members whole =>
      obtain ⟨table, htable⟩ := exists_membersByName_of_settled hsettled
      exact read_object htable
  | _ => rfl

theorem readNamed_congr {members others : List (RawText × Tree)}
    (hdtype : Tree.lastNamed? others "dtype" = Tree.lastNamed? members "dtype")
    (hshape : Tree.lastNamed? others "shape" = Tree.lastNamed? members "shape")
    (hoffsets : Tree.lastNamed? others "data_offsets" = Tree.lastNamed? members "data_offsets") :
    readNamed others = readNamed members := by
  rw [readNamed, hdtype, hshape, hoffsets, readNamed]

theorem lastNamed?_unknown {front back : List (RawText × Tree)} {key : RawText} {name : String}
    (h : key.decode? ≠ some name) (t : Tree) :
    Tree.lastNamed? (front ++ (key, t) :: back) name = Tree.lastNamed? (front ++ back) name := by
  rw [Tree.lastNamed?_append, Tree.lastNamed?_cons, if_neg h, Option.or_none,
    Tree.lastNamed?_append]

/-- An array of the fields of an entry is read as the entry is. -/
theorem read_positional {members : List (RawText × Tree)} {dtype shape offsets : Tree}
    (hdtype : Tree.lastNamed? members "dtype" = some dtype)
    (hshape : Tree.lastNamed? members "shape" = some shape)
    (hoffsets : Tree.lastNamed? members "data_offsets" = some offsets) :
    read (.array [dtype, shape, offsets] true) = readNamed members := by
  by_cases htold : ∃ e, Told dtype shape offsets e
  · obtain ⟨e, told⟩ := htold
    obtain ⟨hd, hs, ho⟩ := told.reads
    rw [read, readNamed, hdtype, hshape, hoffsets]
    simp only [Option.mapM_some, hd, hs, ho]
    rfl
  · have hmisfit : Misfit members := by
      by_contra hfit
      obtain ⟨d, hd⟩ := not_not.mp fun h => hfit (.dtype hdtype h)
      obtain ⟨s, hs⟩ := not_not.mp fun h => hfit (.shape hshape h)
      obtain ⟨o, ho⟩ := not_not.mp fun h => hfit (.offsets hoffsets h)
      exact htold ⟨⟨d, s, o⟩, hd, hs, ho⟩
    have hnone : ¬ ∃ e, Tells (.array [dtype, shape, offsets] true) e := by
      rintro ⟨e, htells⟩
      cases htells with
      | positional told => exact htold ⟨e, told⟩
    rw [readNamed_of_misfit hmisfit, read_array_invalid hnone]

/-- However an entry is written, it says the same. -/
theorem Respelled.sense_eq {t u : Tree} (h : Respelled t u) : sense u = sense t := by
  cases h with
  | members h =>
      exact readNamed_congr (h.lastNamed?_eq _) (h.lastNamed?_eq _) (h.lastNamed?_eq _)
  | unknown hdtype hshape hoffsets =>
      exact readNamed_congr (lastNamed?_unknown hdtype _) (lastNamed?_unknown hshape _)
        (lastNamed?_unknown hoffsets _)
  | positional hdtype hshape hoffsets => exact read_positional hdtype hshape hoffsets

end Entry

/-! ## Headers -/

namespace Header

/-- A header that is written in another way: its members are rearranged, an entry is
written in another way, or the members of the metadata are rearranged. -/
inductive Respelled : List (RawText × Tree) → List (RawText × Tree) → Prop where
  | members {members others : List (RawText × Tree)} (h : Tree.Rearranged members others) :
    Respelled members others
  | entry {front back : List (RawText × Tree)} {key : RawText} {t u : Tree}
    (hkey : key.decode? ≠ some metadataKey) (h : Entry.Respelled t u) :
    Respelled (front ++ (key, t) :: back) (front ++ (key, u) :: back)
  | metadata {front back members others : List (RawText × Tree)} {key : RawText}
    (hkey : key.decode? = some metadataKey) (h : Tree.Rearranged members others) :
    Respelled (front ++ (key, .object members true) :: back)
      (front ++ (key, .object others true) :: back)

/-- Two values say the same under a name. -/
inductive Alike : String → Tree → Tree → Prop where
  | refl (name : String) (t : Tree) : Alike name t t
  | entry {name : String} {t u : Tree} (hname : name ≠ metadataKey)
    (h : Entry.sense u = Entry.sense t) : Alike name t u
  | metadata {members others : List (RawText × Tree)}
    (h : ∀ key, Tree.lastNamed? others key = Tree.lastNamed? members key) :
    Alike metadataKey (.object members true) (.object others true)

theorem Alike.trans {name : String} {t u v : Tree} (h : Alike name t u) (h' : Alike name u v) :
    Alike name t v := by
  cases h with
  | refl => exact h'
  | entry hname h =>
      cases h' with
      | refl => exact .entry hname h
      | entry _ h' => exact .entry hname (h'.trans h)
      | metadata => exact absurd rfl hname
  | metadata h =>
      cases h' with
      | refl => exact .metadata h
      | entry hname _ => exact absurd rfl hname
      | metadata h' => exact .metadata fun key => (h' key).trans (h key)

/-- Under every name the last members say the same, or there are none. -/
def SameSense (members others : List (RawText × Tree)) : Prop :=
  ∀ name, Option.Rel (Alike name) (Tree.lastNamed? members name) (Tree.lastNamed? others name)

theorem rel_refl (name : String) (t? : Option Tree) : Option.Rel (Alike name) t? t? := by
  cases t? with
  | none => exact .none
  | some t => exact .some (.refl name t)

theorem rel_trans {name : String} {a b c : Option Tree} (h : Option.Rel (Alike name) a b)
    (h' : Option.Rel (Alike name) b c) : Option.Rel (Alike name) a c := by
  cases h with
  | none => exact h'
  | some h =>
      cases h' with
      | some h' => exact .some (h.trans h')

theorem rel_imp {r q : Tree → Tree → Prop} {a b : Option Tree} (h : Option.Rel r a b)
    (himp : ∀ t u, a = some t → b = some u → r t u → q t u) : Option.Rel q a b := by
  cases h with
  | none => exact .none
  | some h => exact .some (himp _ _ rfl rfl h)

/-- One member that says the same leaves what the members say. -/
theorem sameSense_of_alike {front back : List (RawText × Tree)} {key : RawText} {t u : Tree}
    (h : ∀ name, key.decode? = some name → Alike name t u) :
    SameSense (front ++ (key, t) :: back) (front ++ (key, u) :: back) := by
  intro name
  rw [Tree.lastNamed?_append, Tree.lastNamed?_cons, Tree.lastNamed?_append, Tree.lastNamed?_cons]
  cases Tree.lastNamed? back name with
  | some v => exact rel_refl name _
  | none =>
      by_cases hkey : key.decode? = some name
      · rw [if_pos hkey, if_pos hkey]
        exact .some (h name hkey)
      · rw [if_neg hkey, if_neg hkey]
        exact rel_refl name _

/-- One change of the spelling leaves what the members say. -/
theorem Respelled.sameSense {members others : List (RawText × Tree)}
    (h : Respelled members others) : SameSense members others := by
  cases h with
  | members h =>
      intro name
      rw [h.lastNamed?_eq name]
      exact rel_refl name _
  | entry hkey h =>
      refine sameSense_of_alike fun name hname => .entry ?_ h.sense_eq
      rintro rfl
      exact hkey hname
  | metadata hkey h =>
      refine sameSense_of_alike fun name hname => ?_
      obtain rfl : name = metadataKey := Option.some.inj (hname.symm.trans hkey)
      exact .metadata h.lastNamed?_eq

/-- Any number of changes leaves what the members say. -/
theorem sameSense_of_respelled {members others : List (RawText × Tree)}
    (h : Relation.ReflTransGen Respelled members others) : SameSense members others := by
  induction h with
  | refl => exact fun name => rel_refl name _
  | tail _ hstep ih => exact fun name => rel_trans (ih name) (hstep.sameSense name)

/-- A visit of a member is a matter of what the member says. -/
theorem visit_of_alike {room available : Nat} {name : String} {t u : Tree}
    (ht : t.settled room = true) (hu : u.settled room = true) (h : Alike name t u)
    (header : Header) : visit available header name u = visit available header name t := by
  cases h with
  | refl => rfl
  | entry hname h =>
      rw [visit, if_neg hname, Entry.read_eq_sense hu, h, ← Entry.read_eq_sense ht, visit,
        if_neg hname]
  | @metadata members others h =>
      obtain ⟨table, htable⟩ := exists_membersByName_of_settled ht
      obtain ⟨other, hother⟩ := exists_membersByName_of_settled hu
      obtain rfl : other = table := Table.ext_get? fun key => by
        rw [get?_of_membersByName hother, get?_of_membersByName htable, h key]
      have hread : readMetadata (.object others true) = readMetadata (.object members true) := by
        rw [readMetadata, hother, readMetadata, htable]
      rw [visit, if_pos rfl, hread, visit, if_pos rfl]

/-- Members that are visited alike, name by name, make the same header. -/
theorem visitAll_of_alike {available : Nat} {table other : Table Tree}
    (h : ∀ name, Option.Rel
      (fun t u => ∀ header, visit available header name u = visit available header name t)
      (table.get? name) (other.get? name)) (header : Header) :
    visitAll available header other.toList = visitAll available header table.toList := by
  have hvisits : other.map (fun name t header => visit available header name t) =
      table.map fun name t header => visit available header name t := by
    refine Table.ext_get? fun name => ?_
    have hname := h name
    rw [Table.get?_map, Table.get?_map]
    generalize table.get? name = a, other.get? name = b at hname ⊢
    cases hname with
    | none => rfl
    | some hvisit => exact congrArg some (funext hvisit)
  have hlist := congrArg Table.toList hvisits
  rw [Table.toList_map, Table.toList_map] at hlist
  have hfold := congrArg (List.foldlM (fun header m => m.2 header) header) hlist
  rwa [List.foldlM_map, List.foldlM_map] at hfold

section

variable {members others : List (RawText × Tree)} {s u : List UInt8}

theorem members_of_spelled (h : (Tree.object members true).Spelled s) :
    Header.members s = membersOf (.object members true) := by
  rw [members_eq, document_of_spelled _ h]

/-- Headers whose members say the same are read the same. -/
theorem read_of_sameSense (hs : (Tree.object members true).Spelled s)
    (hu : (Tree.object others true).Spelled u)
    (hsettled : (Tree.object members true).settled Tree.nestingLimit =
      (Tree.object others true).settled Tree.nestingLimit)
    (h : SameSense members others) (available : Nat) : read available u = read available s := by
  rw [read, members_of_spelled hu, read, members_of_spelled hs, membersOf, membersOf, ← hsettled]
  cases hdecoded : (Tree.object members true).settled Tree.nestingLimit with
  | false => rfl
  | true =>
      rw [hdecoded] at hsettled
      obtain ⟨table, htable⟩ := exists_membersByName_of_settled hdecoded
      obtain ⟨other, hother⟩ := exists_membersByName_of_settled hsettled.symm
      rw [if_pos rfl, if_pos rfl, htable, hother]
      refine visitAll_of_alike (fun name => ?_) ⟨.empty, .empty⟩
      rw [get?_of_membersByName htable, get?_of_membersByName hother]
      refine rel_imp (h name) fun t u ht hu halike header => ?_
      exact visit_of_alike (Tree.settled_of_lastNamed? hdecoded ht)
        (Tree.settled_of_lastNamed? hsettled.symm hu) halike header

end

end Header

/-! ## Containers -/

/-- The spelling of a header does not matter: where two headers are both decoded, or
neither is, and one is a spelling of the other, the containers are read the same, with
the same tensors, metadata and look-ups or with the same error. -/
theorem Store.ofBytes_respelled {members others : List (RawText × Tree)} {s u : List UInt8}
    (hs : (Tree.object members true).Spelled s) (hu : (Tree.object others true).Spelled u)
    (hslength : s.length ≤ maxHeaderLength) (hulength : u.length ≤ maxHeaderLength)
    (hsettled : (Tree.object members true).settled Tree.nestingLimit =
      (Tree.object others true).settled Tree.nestingLimit)
    (h : Relation.ReflTransGen Header.Respelled members others) (raw : List UInt8) :
    ofBytes (frame u raw) = ofBytes (frame s raw) := by
  rw [ofBytes_frame raw hulength, ofBytes_frame raw hslength,
    Header.read_of_sameSense hs hu hsettled (Header.sameSense_of_respelled h)]

/-- The fields of an entry without a shape. -/
def sampleFields (start stop : Nat) : List (RawText × Tree) :=
  [(RawText.ofString "dtype", Tree.ofText "F32"), (RawText.ofString "shape", .array [] true),
    (RawText.ofString "data_offsets",
      .array [Tree.ofNat start, Tree.ofNat stop] true)]

/-- A tensor as an object. -/
def sampleTensor (name : String) (start stop : Nat) : RawText × Tree :=
  (RawText.ofString name, .object (sampleFields start stop) true)

/-- A tensor with an unknown field. -/
def sampleTagged (name : String) (start stop : Nat) : RawText × Tree :=
  (RawText.ofString name,
    .object ((RawText.ofString "x", .null) :: sampleFields start stop) true)

/-- A tensor as an array. -/
def samplePositional (name : String) (start stop : Nat) : RawText × Tree :=
  (RawText.ofString name,
    .array [Tree.ofText "F32", .array [] true,
      .array [Tree.ofNat start, Tree.ofNat stop] true] true)

def sampleNotes (notes : List (RawText × Tree)) : RawText × Tree :=
  (RawText.ofString metadataKey, .object notes true)

def sampleNote : RawText × Tree := (RawText.ofString "k", Tree.ofText "v")

def sampleMembers : List (RawText × Tree) :=
  [sampleTensor "a" 0 4, sampleTensor "b" 4 8, sampleNotes [sampleNote]]

def sampleHeader : List UInt8 :=
  ("\x7b\"a\":\x7b\"dtype\":\"F32\",\"shape\":[],\"data_offsets\":[0,4]\x7d," ++
    "\"b\":\x7b\"dtype\":\"F32\",\"shape\":[],\"data_offsets\":[4,8]\x7d," ++
    "\"__metadata__\":\x7b\"k\":\"v\"\x7d\x7d").toUTF8.toList

/-- The same header with its tensors swapped, one of them as an array and the other
with an unknown field, and with an overridden key of the metadata. -/
def sampleOthers : List (RawText × Tree) :=
  [sampleTagged "b" 4 8, samplePositional "a" 0 4,
    sampleNotes [(RawText.ofString "k", .null), sampleNote]]

def sampleSpelling : List UInt8 :=
  (" \x7b\"b\" :\x7b\"x\":null,\"dtype\":\"F32\",\"shape\":[],\"data_offsets\":[4, 8]\x7d," ++
    "\"a\":[\"F32\",[ ],[0,4]]," ++
    "\n\"__metadata__\":\x7b\"k\":null,\"k\":\"v\"\x7d\x7d\t").toUTF8.toList

theorem respelled_sampleOthers :
    Relation.ReflTransGen Header.Respelled sampleMembers sampleOthers := by
  have hswap : Header.Respelled sampleMembers
      [sampleTensor "b" 4 8, sampleTensor "a" 0 4, sampleNotes [sampleNote]] :=
    .members (@Tree.Rearranged.swap [] [sampleNotes [sampleNote]] (sampleTensor "a" 0 4)
      (sampleTensor "b" 4 8) (by decide +kernel))
  have hunknown : Header.Respelled
      [sampleTensor "b" 4 8, sampleTensor "a" 0 4, sampleNotes [sampleNote]]
      [sampleTagged "b" 4 8, sampleTensor "a" 0 4, sampleNotes [sampleNote]] :=
    @Header.Respelled.entry [] _ (RawText.ofString "b") _ _ (by decide +kernel)
      (@Entry.Respelled.unknown [] (sampleFields 4 8) (RawText.ofString "x") .null
        (by decide +kernel) (by decide +kernel) (by decide +kernel))
  have hdtype : Tree.lastNamed? (sampleFields 0 4) "dtype" = some (Tree.ofText "F32") := by
    simp [Tree.lastNamed?, sampleFields, RawText.decode?_ofString]
  have hshape : Tree.lastNamed? (sampleFields 0 4) "shape" = some (.array [] true) := by
    simp [Tree.lastNamed?, sampleFields, RawText.decode?_ofString]
  have hoffsets : Tree.lastNamed? (sampleFields 0 4) "data_offsets" =
      some (.array [Tree.ofNat 0, Tree.ofNat 4] true) := by
    simp [Tree.lastNamed?, sampleFields, RawText.decode?_ofString]
  have hpositional : Header.Respelled
      [sampleTagged "b" 4 8, sampleTensor "a" 0 4, sampleNotes [sampleNote]]
      [sampleTagged "b" 4 8, samplePositional "a" 0 4, sampleNotes [sampleNote]] :=
    @Header.Respelled.entry [sampleTagged "b" 4 8] _ (RawText.ofString "a") _ _
      (by decide +kernel) (.positional hdtype hshape hoffsets)
  have hmetadata : Header.Respelled
      [sampleTagged "b" 4 8, samplePositional "a" 0 4, sampleNotes [sampleNote]] sampleOthers :=
    @Header.Respelled.metadata [sampleTagged "b" 4 8, samplePositional "a" 0 4] [] _ _
      (RawText.ofString metadataKey) (by decide +kernel)
      (@Tree.Rearranged.overridden [] [] [] (RawText.ofString "k", .null) sampleNote rfl)
  exact .tail (.tail (.tail (.single hswap) hunknown) hpositional) hmetadata

/-- The container is read for every tensor data, and its second tensor is missed where
only the first is there. -/
theorem Store.ofBytes_respelled_sampleSpelling :
    (Tree.object sampleMembers true).Spelled sampleHeader ∧
      (Tree.object sampleOthers true).Spelled sampleSpelling ∧
      sampleHeader.length ≤ maxHeaderLength ∧ sampleSpelling.length ≤ maxHeaderLength ∧
      (Tree.object sampleMembers true).settled Tree.nestingLimit =
        (Tree.object sampleOthers true).settled Tree.nestingLimit ∧
      (∀ raw, ofBytes (frame sampleSpelling raw) = ofBytes (frame sampleHeader raw)) ∧
      ofBytes (frame sampleSpelling [0, 0, 0, 0]) = .error (.truncatedData "b" 8 4) := by
  have hmembers : (Tree.object sampleMembers true).settled Tree.nestingLimit = true := by
    decide +kernel
  have hothers : (Tree.object sampleOthers true).settled Tree.nestingLimit = true := by
    decide +kernel
  have hs : (Tree.object sampleMembers true).Spelled sampleHeader :=
    spelled_of_tokens_eq (whole_of_settled hmembers) (by decide +kernel)
  have hu : (Tree.object sampleOthers true).Spelled sampleSpelling :=
    spelled_of_tokens_eq (whole_of_settled hothers) (by decide +kernel)
  have hslength : sampleHeader.length ≤ maxHeaderLength := by decide +kernel
  have hulength : sampleSpelling.length ≤ maxHeaderLength := by decide +kernel
  have hsettled := hmembers.trans hothers.symm
  have hsame := ofBytes_respelled hs hu hslength hulength hsettled respelled_sampleOthers
  have hshort : ofBytes (frame sampleHeader [0, 0, 0, 0]) = .error (.truncatedData "b" 8 4) := by
    decide +kernel
  exact ⟨hs, hu, hslength, hulength, hsettled, hsame, (hsame _).trans hshort⟩

end Weights

end NetReplay
