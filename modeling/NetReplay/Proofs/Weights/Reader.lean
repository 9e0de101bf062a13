import NetReplay.Proofs.Table
import NetReplay.Weights.Store

/-!
# Kept tensors do not show

A reader keeps what it has decoded. Everything it keeps is what the store
decodes (`Reader.Sound`), and looking a tensor up preserves this, so every
look-up gives what the store alone would give, whatever was looked up before
(`get_after`).
-/

namespace NetReplay

namespace Weights

namespace Reader

/-- What the reader keeps is what its store decodes. -/
def Sound (r : Reader) : Prop :=
  ∀ name values, r.decoded.get? name = some values → r.store.values name = .ok values

theorem sound_ofStore (store : Store) : (ofStore store).Sound := by
  intro name values h
  cases h

theorem get_fst {r : Reader} (h : r.Sound) (name : String) :
    (r.get name).1 = r.store.values name := by
  rw [get]
  cases hdecoded : r.decoded.get? name with
  | some values => exact (h name values hdecoded).symm
  | none => cases hvalues : r.store.values name <;> rfl

theorem store_get (r : Reader) (name : String) : (r.get name).2.store = r.store := by
  rw [get]
  cases r.decoded.get? name with
  | some values => rfl
  | none => cases r.store.values name <;> rfl

theorem sound_get {r : Reader} (h : r.Sound) (name : String) : (r.get name).2.Sound := by
  rw [get]
  cases r.decoded.get? name with
  | some values => exact h
  | none =>
      cases hvalues : r.store.values name with
      | error e => exact h
      | ok values =>
          intro other found hfound
          rw [Table.get?_insert] at hfound
          by_cases hother : other = name
          · rw [if_pos hother] at hfound
            cases hfound
            rw [hother]
            exact hvalues
          · rw [if_neg hother] at hfound
            exact h other found hfound

/-- The reader after tensors were looked up. -/
def after (r : Reader) (names : List String) : Reader :=
  names.foldl (fun r name => (r.get name).2) r

theorem store_after (r : Reader) (names : List String) : (r.after names).store = r.store := by
  induction names generalizing r with
  | nil => rfl
  | cons name names ih => exact (ih (r.get name).2).trans (store_get r name)

theorem sound_after {r : Reader} (h : r.Sound) (names : List String) : (r.after names).Sound := by
  induction names generalizing r with
  | nil => exact h
  | cons name names ih => exact ih (sound_get h name)

/-- What was looked up before does not change what a look-up gives. -/
theorem get_after (store : Store) (names : List String) (name : String) :
    (((ofStore store).after names).get name).1 = store.values name := by
  rw [get_fst (sound_after (sound_ofStore store) names), store_after]
  rfl

end Reader

end Weights

end NetReplay
