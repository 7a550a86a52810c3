import Fleet.Request
import Fleet.Store.Basic

/-!
# Listing a tenant's instances

A listing shows the records that pass the filters, the newest first and those of one moment by id, cut
to the page that the query asks for. It depends on which records there are and not on how the store
keeps them.
-/

namespace Fleet

/-- Whether a listing shows `a` before `b`, or they stand at the same place. -/
def Instance.listedBefore (a b : Instance) : Bool :=
  b.createdAt.before a.createdAt || (a.createdAt = b.createdAt && (compare a.id b.id).isLE)

namespace Query

def accepts (q : Query) (i : Instance) : Bool :=
  q.state.all (· = i.state) && q.label.all i.matchesLabel && q.provider.all (· = i.provider)

/-- The records of a tenant that the query is about, in the order of a listing. -/
def select (q : Query) (tenant : String) (records : List Instance) : List Instance :=
  (records.filter fun i => i.tenant = tenant && q.accepts i).mergeSort Instance.listedBefore

/-- Where the page begins: after the record that the cursor names. -/
def start (q : Query) (selected : List Instance) : Except Failure Nat :=
  match q.cursor with
  | none => .ok 0
  | some cursor =>
    match selected.findIdx? (·.id = cursor) with
    | some n => .ok (n + 1)
    | none => .error (.invalid (.unknownCursor cursor))

def page (q : Query) (selected : List Instance) : Except Failure Page := do
  let total := selected.length
  let start ← q.start selected
  let stop := if q.limit = 0 then total else min (start + q.limit.toNat) total
  let items := (selected.take stop).drop start
  let nextCursor := if stop < total then items.getLast?.map (·.id) else none
  return { items, nextCursor, total }

end Query

namespace Store

def list (s : Store) (tenant : String) (q : Query) : Except Failure Page :=
  q.page (q.select tenant s.records.values)

end Store

end Fleet
