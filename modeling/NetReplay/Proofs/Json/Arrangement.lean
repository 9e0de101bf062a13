import NetReplay.Json.Tree

/-!
# Arranging tokens

A tree that is whole is arranged back from its own tokens (`ofTokens_tokens`),
and whatever is arranged as a whole tree had exactly these tokens
(`tokens_of_arrange`).

`Whole` is an inductive predicate, so the first goes by induction on the shape of
the tree. That nothing gets lost while tokens are arranged rests on `taken`: the
tokens taken so far can be read off what has to come next and the containers that
are open, and each move adds its token to them (`keeps_step`). A value that was
given up on the way is marked as not whole, so a whole one has all tokens.
-/

namespace NetReplay

namespace Json

namespace Tree

mutual

/-- The tokens of a value. -/
def tokens : Tree → List Token
  | .null => [.null]
  | .bool b => [.bool b]
  | .number n => [.number n]
  | .string t => [.string t]
  | .array items _ => .openArray :: itemTokens items ++ [.closeArray]
  | .object members _ => .openObject :: memberTokens members ++ [.closeObject]
  | .broken => []

/-- The tokens of the items of an array, with commas between them. -/
def itemTokens : List Tree → List Token
  | [] => []
  | [t] => tokens t
  | t :: rest => tokens t ++ .comma :: itemTokens rest

/-- The tokens of the members of an object, with commas between them. -/
def memberTokens : List (RawText × Tree) → List Token
  | [] => []
  | [(key, t)] => .string key :: .colon :: tokens t
  | (key, t) :: rest => .string key :: .colon :: tokens t ++ .comma :: memberTokens rest

end

/-- Nothing is missing from the value. -/
inductive Whole : Tree → Prop where
  | null : Whole .null
  | bool (b : Bool) : Whole (.bool b)
  | number (n : Numeral) : Whole (.number n)
  | string (t : RawText) : Whole (.string t)
  | array (items : List Tree) (h : ∀ t ∈ items, Whole t) : Whole (.array items true)
  | object (members : List (RawText × Tree)) (h : ∀ m ∈ members, Whole m.2) :
    Whole (.object members true)

/-! ## Arranging the tokens of a value -/

/-- What arranging comes to once a value is finished. -/
def placed (t : Tree) (holes : List Hole) (rest : List Token) : Tree × List Token :=
  match holes with
  | [] => (t, rest)
  | hole :: holes => arrange (.separator (hole.fill t)) holes rest

theorem arrange_of_place {await : Await} {holes : List Hole} {token : Token} {t : Tree}
    (h : await.step holes token = place t holes) (rest : List Token) :
    arrange await holes (token :: rest) = placed t holes rest := by
  rw [arrange, h]
  cases holes <;> rfl

theorem arrange_of_more {await next : Await} {holes inner : List Hole} {token : Token}
    (h : await.step holes token = .more next inner) (rest : List Token) :
    arrange await holes (token :: rest) = arrange next inner rest := by
  rw [arrange, h]

theorem itemTokens_cons (t : Tree) (items : List Tree) :
    itemTokens (t :: items) = t.tokens ++ items.flatMap fun u => .comma :: u.tokens := by
  induction items generalizing t with
  | nil => simp [itemTokens]
  | cons u items ih => simp [itemTokens, ih u]

theorem memberTokens_cons (m : RawText × Tree) (members : List (RawText × Tree)) :
    memberTokens (m :: members) =
      .string m.1 :: .colon :: m.2.tokens ++
        members.flatMap fun n => .comma :: .string n.1 :: .colon :: n.2.tokens := by
  induction members generalizing m with
  | nil => simp [memberTokens]
  | cons n members ih => simp [memberTokens, ih n]

/-- In front of a first item an array is about to place it, unless it ends. -/
theorem arrange_item {t : Tree} (h : Whole t) (holes : List Hole) (rest : List Token) :
    arrange .item holes (t.tokens ++ rest) =
      arrange .value (.item [] :: holes) (t.tokens ++ rest) := by
  cases h <;> rfl

theorem arrange_items {items : List Tree}
    (h : ∀ t ∈ items, ∀ holes rest, arrange .value holes (t.tokens ++ rest) = placed t holes rest)
    (before : List Tree) (holes : List Hole) (rest : List Token) :
    arrange (.separator (.array before)) holes
        ((items.flatMap fun u => .comma :: u.tokens) ++ .closeArray :: rest) =
      placed (.array (before.reverse ++ items) true) holes rest := by
  induction items generalizing before with
  | nil =>
      rw [List.append_nil]
      exact arrange_of_place rfl rest
  | cons t items ih =>
      have ht := h t List.mem_cons_self
      have hrest := ih (fun u hu => h u (List.mem_cons_of_mem t hu)) (t :: before)
      rw [List.reverse_cons, List.append_assoc, List.singleton_append] at hrest
      simp only [List.flatMap_cons, List.cons_append, List.append_assoc]
      rw [arrange_of_more rfl, ht]
      exact hrest

theorem arrange_members {members : List (RawText × Tree)}
    (h : ∀ m ∈ members, ∀ holes rest,
      arrange .value holes (m.2.tokens ++ rest) = placed m.2 holes rest)
    (before : List (RawText × Tree)) (holes : List Hole) (rest : List Token) :
    arrange (.separator (.object before)) holes
        ((members.flatMap fun n => .comma :: .string n.1 :: .colon :: n.2.tokens) ++
          .closeObject :: rest) =
      placed (.object (before.reverse ++ members) true) holes rest := by
  induction members generalizing before with
  | nil =>
      rw [List.append_nil]
      exact arrange_of_place rfl rest
  | cons m members ih =>
      have hm := h m List.mem_cons_self
      have hrest := ih (fun n hn => h n (List.mem_cons_of_mem m hn)) (m :: before)
      rw [List.reverse_cons, List.append_assoc, List.singleton_append] at hrest
      simp only [List.flatMap_cons, List.cons_append, List.append_assoc]
      rw [arrange_of_more rfl, arrange_of_more rfl, arrange_of_more rfl, hm]
      exact hrest

/-- A whole value is arranged back from its tokens. -/
theorem arrange_tokens {t : Tree} (h : Whole t) (holes : List Hole) (rest : List Token) :
    arrange .value holes (t.tokens ++ rest) = placed t holes rest := by
  induction h generalizing holes rest with
  | null => exact arrange_of_place rfl rest
  | bool b => exact arrange_of_place rfl rest
  | number n => exact arrange_of_place rfl rest
  | string t => exact arrange_of_place rfl rest
  | array items h ih =>
      rw [tokens, List.cons_append, List.cons_append, arrange_of_more rfl]
      cases items with
      | nil => exact arrange_of_place rfl rest
      | cons t items =>
          have ht := ih t List.mem_cons_self
          rw [itemTokens_cons, List.append_assoc, List.append_assoc,
            arrange_item (h t List.mem_cons_self), ht]
          exact arrange_items (fun u hu => ih u (List.mem_cons_of_mem t hu)) [t] holes rest
  | object members h ih =>
      rw [tokens, List.cons_append, List.cons_append, arrange_of_more rfl]
      cases members with
      | nil => exact arrange_of_place rfl rest
      | cons m members =>
          have hm := ih m List.mem_cons_self
          simp only [memberTokens_cons, List.cons_append, List.append_assoc]
          rw [arrange_of_more rfl, arrange_of_more rfl, hm]
          exact arrange_members (fun n hn => ih n (List.mem_cons_of_mem m hn)) [m] holes rest

theorem ofTokens_tokens {t : Tree} (h : Whole t) : ofTokens t.tokens = (t, []) := by
  have ht := arrange_tokens h [] []
  rw [List.append_nil] at ht
  exact ht

/-! ## What was taken -/

/-- The items in front of a further one. -/
def leadingItems (items : List Tree) : List Token := items.flatMap fun t => t.tokens ++ [.comma]

/-- The members in front of a further one. -/
def leadingMembers (members : List (RawText × Tree)) : List Token :=
  members.flatMap fun m => .string m.1 :: .colon :: m.2.tokens ++ [.comma]

theorem itemTokens_append_singleton (items : List Tree) (t : Tree) :
    itemTokens (items ++ [t]) = leadingItems items ++ t.tokens := by
  induction items with
  | nil => simp [itemTokens, leadingItems]
  | cons u items ih =>
      rw [List.cons_append, leadingItems, List.flatMap_cons, ← leadingItems, List.append_assoc, ← ih]
      cases items <;> simp [itemTokens]

theorem memberTokens_append_singleton (members : List (RawText × Tree)) (key : RawText)
    (t : Tree) :
    memberTokens (members ++ [(key, t)]) =
      leadingMembers members ++ .string key :: .colon :: t.tokens := by
  induction members with
  | nil => simp [memberTokens, leadingMembers]
  | cons m members ih =>
      rw [List.cons_append, leadingMembers, List.flatMap_cons, ← leadingMembers, List.append_assoc,
        ← ih]
      cases members <;> simp [memberTokens]

end Tree

open NetReplay.Json.Tree

/-- The tokens of an open container up to a hole. -/
def Hole.taken : Hole → List Token
  | .item items => .openArray :: leadingItems items.reverse
  | .member members key => .openObject :: (leadingMembers members.reverse ++ [.string key, .colon])

/-- The tokens of an open container up to its last value. -/
def Open.taken : Open → List Token
  | .array items => .openArray :: itemTokens items.reverse
  | .object members => .openObject :: memberTokens members.reverse

/-- The tokens taken since the innermost hole was opened. -/
def Await.taken : Await → List Token
  | .value => []
  | .item => [.openArray]
  | .firstKey => [.openObject]
  | .key members => .openObject :: leadingMembers members.reverse
  | .colon members name => .openObject :: (leadingMembers members.reverse ++ [.string name])
  | .separator container => container.taken

/-- The tokens of open containers up to the innermost hole. -/
def takenHoles : List Hole → List Token
  | [] => []
  | hole :: holes => takenHoles holes ++ hole.taken

/-- A separator can only stand behind a value. -/
def Await.Started : Await → Prop
  | .separator (.array items) => items ≠ []
  | .separator (.object members) => members ≠ []
  | _ => True

theorem Hole.taken_fill (hole : Hole) (t : Tree) :
    (hole.fill t).taken = hole.taken ++ t.tokens := by
  cases hole with
  | item items => simp [fill, Open.taken, Hole.taken, itemTokens_append_singleton]
  | member members key => simp [fill, Open.taken, Hole.taken, memberTokens_append_singleton]

theorem Hole.started_fill (hole : Hole) (t : Tree) : (Await.separator (hole.fill t)).Started := by
  cases hole <;> exact List.cons_ne_nil _ _

/-- A comma leaves room for a further item. -/
theorem Open.taken_array_comma {items : List Tree} (h : items ≠ []) :
    (Open.array items).taken ++ [.comma] = (Hole.item items).taken := by
  cases items with
  | nil => exact absurd rfl h
  | cons t items =>
      simp [Open.taken, Hole.taken, itemTokens_append_singleton, leadingItems]

theorem Open.taken_object_comma {members : List (RawText × Tree)} (h : members ≠ []) :
    (Open.object members).taken ++ [.comma] = (Await.key members).taken := by
  cases members with
  | nil => exact absurd rfl h
  | cons m members =>
      have hlast := memberTokens_append_singleton members.reverse m.1 m.2
      simp [Open.taken, Await.taken, hlast, leadingMembers]

/-- The tokens taken so far can be read off where a token leads. -/
def Progress.Keeps (taken : List Token) : Progress → Prop
  | .more await holes => await.Started ∧ takenHoles holes ++ await.taken = taken
  | .done t => t.tokens = taken
  | .stuck => True

theorem keeps_place (t : Tree) (holes : List Hole) :
    (place t holes).Keeps (takenHoles holes ++ t.tokens) := by
  cases holes with
  | nil => exact rfl
  | cons hole holes =>
      refine ⟨hole.started_fill t, ?_⟩
      rw [Await.taken, hole.taken_fill, takenHoles, List.append_assoc]

theorem keeps_startValue (token : Token) (holes : List Hole) :
    (startValue token holes).Keeps (takenHoles holes ++ [token]) := by
  cases token with
  | null => exact keeps_place .null holes
  | bool b => exact keeps_place (.bool b) holes
  | number n => exact keeps_place (.number n) holes
  | string t => exact keeps_place (.string t) holes
  | openArray => exact ⟨trivial, rfl⟩
  | openObject => exact ⟨trivial, rfl⟩
  | _ => trivial

/-- Each move adds its token to those taken so far. -/
theorem keeps_step {await : Await} (h : await.Started) (holes : List Hole) (token : Token) :
    (await.step holes token).Keeps (takenHoles holes ++ (await.taken ++ [token])) := by
  unfold Await.step
  split
  · exact keeps_startValue token holes
  · exact keeps_place (.array [] true) holes
  · have hstart := keeps_startValue token (.item [] :: holes)
    rw [takenHoles, List.append_assoc] at hstart
    exact hstart
  · exact keeps_place (.object [] true) holes
  · exact ⟨trivial, rfl⟩
  · exact ⟨trivial, by simp [Await.taken]⟩
  · exact ⟨trivial, by simp [Await.taken, takenHoles, Hole.taken]⟩
  · refine ⟨trivial, ?_⟩
    rw [Await.taken, List.append_nil, takenHoles, ← Open.taken_array_comma h]
    rfl
  · exact keeps_place _ holes
  · exact ⟨trivial, congrArg (takenHoles holes ++ ·) (Open.taken_object_comma h).symm⟩
  · exact keeps_place _ holes
  · trivial

/-! ## Values that were given up -/

theorem not_whole_close (container : Open) : ¬ Whole (container.close false) := by
  cases container <;> intro h <;> cases h

theorem not_whole_abandon {t : Tree} (h : ¬ Whole t) (holes : List Hole) :
    ¬ Whole (abandon t holes) := by
  induction holes generalizing t with
  | nil => exact h
  | cons hole holes ih => exact ih (not_whole_close _)

theorem not_whole_giveUp (await : Await) (holes : List Hole) : ¬ Whole (await.giveUp holes) := by
  cases await with
  | separator container => exact not_whole_abandon (not_whole_close container) holes
  | key members => exact not_whole_abandon (not_whole_close (.object members)) holes
  | colon members name => exact not_whole_abandon (not_whole_close _) holes
  | _ => exact not_whole_abandon (fun h => by cases h) holes

/-- Arranging loses no token of a whole value. -/
theorem tokens_of_arrange {await : Await} {holes : List Hole} {ts left : List Token} {t : Tree}
    (hstart : await.Started) (h : arrange await holes ts = (t, left)) (hwhole : t.Whole) :
    t.tokens ++ left = takenHoles holes ++ (await.taken ++ ts) := by
  induction ts generalizing await holes with
  | nil =>
      cases h
      exact absurd hwhole (not_whole_giveUp await holes)
  | cons token rest ih =>
      have hkeeps := keeps_step hstart holes token
      rw [arrange] at h
      cases hstep : await.step holes token with
      | more next inner =>
          rw [hstep] at h hkeeps
          rw [ih hkeeps.1 h, ← List.append_assoc, hkeeps.2]
          simp
      | done u =>
          rw [hstep] at h hkeeps
          cases h
          rw [show t.tokens = _ from hkeeps]
          simp
      | stuck =>
          rw [hstep] at h
          cases h
          exact absurd hwhole (not_whole_giveUp await holes)

end Json

end NetReplay
