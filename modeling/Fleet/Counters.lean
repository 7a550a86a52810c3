import Fleet.Dict
import Fleet.Text.Fingerprint

/-!
# Counters by label values

A family holds one counter for each list of label values that was used with it. A counter is found by the
fingerprint of its label values written one after the other (`Counters.key`), so lists that join to one
text share a counter; it is shown under the labels that it was first used with. A counter comes into
being with the value zero when it is first raised or read. Raising changes the counter with that key
by one and reading changes no value (`value_raise`, `value_touch`).
-/

namespace Fleet

open Std

/-- A counter with the label values that it is shown under. -/
structure Counter where
  labels : List String
  count : Nat
  deriving DecidableEq, Repr, Inhabited

/-- The counters of a family by their keys. -/
structure Counters where
  byKey : Dict UInt64 Counter := .empty
  deriving DecidableEq, Inhabited

namespace Counters

/-- What the counter of a list of label values is found by. -/
def key (labels : List String) : UInt64 := Text.fingerprint (String.join labels)

/-- The counter of a list of label values; a new one when there is none yet. -/
def counter (cs : Counters) (labels : List String) : Counter :=
  (cs.byKey.get? (key labels)).getD ⟨labels, 0⟩

def value (cs : Counters) (labels : List String) : Nat := (cs.counter labels).count

/-- The counters once one of them has been read. -/
def touch (cs : Counters) (labels : List String) : Counters :=
  ⟨cs.byKey.insert (key labels) (cs.counter labels)⟩

def raise (cs : Counters) (labels : List String) : Counters :=
  ⟨cs.byKey.insert (key labels) { cs.counter labels with count := cs.value labels + 1 }⟩

/-- The counters in the order of the labels that they are shown under. -/
def shown (cs : Counters) : List Counter :=
  cs.byKey.values.mergeSort fun a b => (compare a.labels b.labels).isLE

@[simp] theorem value_raise (cs : Counters) (labels labels' : List String) :
    (cs.raise labels).value labels' =
      if key labels = key labels' then cs.value labels + 1 else cs.value labels' := by
  simp only [value, counter, raise, Dict.get?_insert]
  split <;> rfl

@[simp] theorem value_touch (cs : Counters) (labels labels' : List String) :
    (cs.touch labels).value labels' = cs.value labels' := by
  simp only [value, counter, touch, Dict.get?_insert]
  split
  · rename_i h
    rw [h]
    cases cs.byKey.get? (key labels') <;> rfl
  · rfl

end Counters

end Fleet
