import Mathlib.Data.Fintype.Card

/-!
# `Lib.Slots` — a fixed table of slots as a bounded multiset

A table has one slot for each index of a finite type; a slot is in use or not, and holds a value either
way. What the table stores is the multiset `contents` of the values in the slots in use: which slot a
value sits in, and what the unused slots hold, is forgotten.

The second half is the bookkeeping of such a table over time. A ledger is the list of what was added,
removed and cleared, oldest first; `Balanced m es` says that `m` is what the entries since the last clear
leave, everything removed having been added before.
-/

namespace Slots

variable {ι α : Type*} [Fintype ι]

/-- The values in the slots in use. -/
def contents (used : ι → Prop) [DecidablePred used] (val : ι → α) : Multiset α :=
  (Finset.univ.filter used).val.map val

variable {used used' : ι → Prop} [DecidablePred used] [DecidablePred used'] {val val' : ι → α}

theorem mem_contents {a : α} : a ∈ contents used val ↔ ∃ i, used i ∧ val i = a := by
  simp [contents]

/-- **A full table** is one with as many values as slots. -/
theorem card_contents_eq_iff : (contents used val).card = Fintype.card ι ↔ ∀ i, used i := by
  rw [contents, Multiset.card_map, Finset.card_val, ← Finset.card_univ,
    Finset.card_filter_eq_iff]
  simp

/-- Every slot is in use or not. -/
theorem card_unused_add_card_contents :
    (Finset.univ.filter fun i => ¬ used i).card + (contents used val).card = Fintype.card ι := by
  rw [contents, Multiset.card_map, Finset.card_val, Nat.add_comm,
    Finset.card_filter_add_card_filter_not, Finset.card_univ]

theorem contents_of_unused (h : ∀ i, ¬ used i) : contents used val = 0 := by
  rw [contents, Finset.filter_false_of_mem fun i _ => h i]
  rfl

/-- Tables that agree in the slots in use store the same values. -/
theorem contents_congr (hused : ∀ i, used' i ↔ used i) (hval : ∀ i, used i → val' i = val i) :
    contents used' val' = contents used val := by
  rw [contents, contents, Finset.filter_congr fun i _ => hused i]
  exact Multiset.map_congr rfl fun i hi => hval i (Finset.mem_filter.mp hi).2

/-- **One slot more.** A table with one more slot in use holds that slot's value more. -/
theorem contents_cons [DecidableEq ι] {i : ι} (hfree : ¬ used i)
    (hused : ∀ j, used' j ↔ (used j ∨ j = i)) (hval : ∀ j, j ≠ i → val' j = val j) :
    contents used' val' = val' i ::ₘ contents used val := by
  have hslots : Finset.univ.filter used' = insert i (Finset.univ.filter used) := by
    ext j
    simp [hused, or_comm]
  have hnotMem : i ∉ Finset.univ.filter used := by simp [hfree]
  rw [contents, contents, hslots, Finset.insert_val_of_notMem hnotMem, Multiset.map_cons]
  congr 1
  refine Multiset.map_congr rfl fun j hj => hval j ?_
  rintro rfl
  exact hnotMem hj

/-! ## The ledger -/

/-- An entry of the ledger. -/
inductive Event (α : Type*) where
  | add (a : α)
  | remove (a : α)
  | clear
  deriving DecidableEq, Repr

namespace Event

def isClear : Event α → Bool
  | .clear => true
  | _      => false

def added? : Event α → Option α
  | .add a => some a
  | _      => none

def removed? : Event α → Option α
  | .remove a => some a
  | _         => none

end Event

/-- The entries after the last clear. -/
def sinceClear (es : List (Event α)) : List (Event α) :=
  (es.reverse.takeWhile fun e => !e.isClear).reverse

/-- What was added since the last clear. -/
def added (es : List (Event α)) : Multiset α := ↑((sinceClear es).filterMap Event.added?)

/-- What was removed since the last clear. -/
def removed (es : List (Event α)) : Multiset α := ↑((sinceClear es).filterMap Event.removed?)

/-- `m` is what the ledger leaves. -/
def Balanced (m : Multiset α) (es : List (Event α)) : Prop := m + removed es = added es

theorem sinceClear_concat (es : List (Event α)) (e : Event α) :
    sinceClear (es ++ [e]) = if e.isClear then [] else sinceClear es ++ [e] := by
  cases h : e.isClear <;> simp [sinceClear, h]

variable {m : Multiset α} {es : List (Event α)} {a : α}

theorem balanced_nil : Balanced (0 : Multiset α) [] := rfl

theorem added_concat {e : Event α} (h : e.isClear = false) :
    added (es ++ [e]) = ↑e.added?.toList + added es := by
  rw [added, sinceClear_concat, h, if_neg Bool.false_ne_true, List.filterMap_append,
    ← Multiset.coe_add, Multiset.add_comm, added]
  cases he : e.added? <;> simp [he]

theorem removed_concat {e : Event α} (h : e.isClear = false) :
    removed (es ++ [e]) = ↑e.removed?.toList + removed es := by
  rw [removed, sinceClear_concat, h, if_neg Bool.false_ne_true, List.filterMap_append,
    ← Multiset.coe_add, Multiset.add_comm, removed]
  cases he : e.removed? <;> simp [he]

theorem Balanced.add (h : Balanced m es) (a : α) : Balanced (a ::ₘ m) (es ++ [.add a]) := by
  rw [Balanced, added_concat rfl, removed_concat rfl]
  show (a ::ₘ m) + (0 + removed es) = a ::ₘ 0 + added es
  rw [Multiset.zero_add, Multiset.cons_add, show m + removed es = added es from h, Multiset.cons_add,
    Multiset.zero_add]

theorem Balanced.remove (h : Balanced (a ::ₘ m) es) : Balanced m (es ++ [.remove a]) := by
  rw [Balanced, added_concat rfl, removed_concat rfl]
  show m + (a ::ₘ 0 + removed es) = 0 + added es
  rw [Multiset.zero_add, ← show (a ::ₘ m) + removed es = added es from h, Multiset.cons_add,
    Multiset.cons_add, Multiset.add_cons, Multiset.zero_add]

theorem balanced_clear (es : List (Event α)) : Balanced (0 : Multiset α) (es ++ [.clear]) := by
  have hsince : sinceClear (es ++ [.clear]) = [] := by rw [sinceClear_concat]; rfl
  rw [Balanced, added, removed, hsince]
  rfl

/-- What the ledger leaves is a difference, and a proper one. -/
theorem Balanced.eq_sub [DecidableEq α] (h : Balanced m es) :
    m = added es - removed es ∧ removed es ≤ added es := by
  rw [← show m + removed es = added es from h]
  exact ⟨(Multiset.add_sub_cancel_right).symm, Multiset.le_add_left _ _⟩

end Slots
