import Fleet.Failure

/-!
# The store of instances

The records of all tenants by their id, and an index from the slugs of a tenant to ids. Every write
raises the version of the record, and a change is refused unless it carries the version that is
stored. A tenant sees its own records only: the record of another tenant is not found.
-/

namespace Fleet

structure SlugKey where
  tenant : String
  slug : String
  deriving DecidableEq, Repr, Inhabited

namespace SlugKey

open Std

/-- Slugs by tenant, and within a tenant by text. -/
instance : Ord SlugKey := ⟨compareLex (compareOn tenant) (compareOn slug)⟩

instance : TransOrd SlugKey :=
  inferInstanceAs (TransCmp (compareLex (compareOn tenant) (compareOn slug)))

instance : LawfulEqOrd SlugKey where
  eq_of_compare {a b} h := by
    have h : compareLex (compareOn tenant) (compareOn slug) a b = .eq := h
    simp only [compareLex, compareOn, Ordering.then_eq_eq, Std.compare_eq_iff_eq] at h
    cases a; cases b; simp_all

end SlugKey

/-- Records by id, and ids by slug. -/
structure Store where
  records : Dict String Instance := .empty
  slugs : Dict SlugKey String := .empty
  deriving DecidableEq, Inhabited

namespace Store

def empty : Store := {}

def keyOf (i : Instance) : SlugKey := ⟨i.tenant, i.slug⟩

/-- The version of a record that was just inserted. -/
def firstVersion : UInt64 := 1

/-- The record of an id, if it belongs to the tenant. -/
def owned? (s : Store) (tenant id : String) : Option Instance :=
  (s.records.get? id).filter (·.tenant = tenant)

def find (s : Store) (tenant id : String) : Except Failure Instance :=
  match s.owned? tenant id with
  | some i => .ok i
  | none => .error (.noInstance id)

theorem owned?_eq_some_iff {s : Store} {tenant id : String} {i : Instance} :
    s.owned? tenant id = some i ↔ s.records.get? id = some i ∧ i.tenant = tenant := by
  simp [owned?, Option.filter_eq_some_iff]

theorem find_eq_ok_iff {s : Store} {tenant id : String} {i : Instance} :
    s.find tenant id = .ok i ↔ s.records.get? id = some i ∧ i.tenant = tenant := by
  rw [← owned?_eq_some_iff, find]
  split <;> simp_all

def findBySlug (s : Store) (tenant slug : String) : Except Failure Instance :=
  match (s.slugs.get? ⟨tenant, slug⟩).bind s.records.get? with
  | some i => .ok i
  | none => .error (.noSlug slug)

/-- Stores a new record at the first version, whatever version it carries; its id must be new, and
its slug must be new to its tenant. -/
def insert (s : Store) (i : Instance) : Except Failure (UInt64 × Store) :=
  if s.records.contains i.id then .error (.instanceExists i.id)
  else if s.slugs.contains (keyOf i) then .error (.slugTaken i.slug i.tenant)
  else .ok (firstVersion,
    { records := s.records.insert i.id { i with version := firstVersion }
      slugs := s.slugs.insert (keyOf i) i.id })

theorem insert_eq_ok_iff {s s' : Store} {i : Instance} {version : UInt64} :
    s.insert i = .ok (version, s') ↔
      s.records.contains i.id = false ∧ s.slugs.contains (keyOf i) = false ∧
      version = firstVersion ∧
      s' = { records := s.records.insert i.id { i with version := firstVersion }
             slugs := s.slugs.insert (keyOf i) i.id } := by
  unfold insert
  split
  · simp_all
  · split
    · simp_all
    · constructor
      · intro h
        cases h
        simp_all
      · rintro ⟨-, -, rfl, rfl⟩
        rfl

/-- The slug index after a record changed its slug. -/
def reindex (s : Store) (before after : Instance) : Dict SlugKey String :=
  if before.slug = after.slug then s.slugs
  else (s.slugs.erase ⟨after.tenant, before.slug⟩).insert (keyOf after) after.id

/-- Stores a record in place of the one with its id, one version up. It must carry the version that
is stored, and a new slug must be free within the tenant. -/
def update (s : Store) (i : Instance) : Except Failure (UInt64 × Store) :=
  match s.owned? i.tenant i.id with
  | none => .error (.noInstance i.id)
  | some stored =>
    if stored.version ≠ i.version then .error (.staleVersion i.id stored.version i.version)
    else if stored.slug ≠ i.slug ∧ s.slugs.contains (keyOf i) then
      .error (.slugTaken i.slug i.tenant)
    else
      let version := stored.version + 1
      .ok (version,
        { records := s.records.insert i.id { i with version }, slugs := s.reindex stored i })

theorem update_eq_ok {s s' : Store} {i : Instance} {version : UInt64}
    (h : s.update i = .ok (version, s')) :
    ∃ stored, s.records.get? i.id = some stored ∧ stored.tenant = i.tenant ∧
      stored.version = i.version ∧ version = stored.version + 1 ∧
      s' = { records := s.records.insert i.id { i with version }, slugs := s.reindex stored i } := by
  unfold update at h
  split at h
  · cases h
  · rename_i stored hs
    obtain ⟨hget, htenant⟩ := owned?_eq_some_iff.1 hs
    split at h
    · cases h
    · rename_i hversion
      split at h
      · cases h
      · cases h
        exact ⟨stored, hget, htenant, Decidable.not_not.1 hversion, rfl, rfl⟩

/-- A record that carries the stored version and slug is stored, and no slug changes hands. -/
theorem update_of_stored {s : Store} {i stored : Instance} (hget : s.records.get? i.id = some stored)
    (htenant : stored.tenant = i.tenant) (hversion : stored.version = i.version)
    (hslug : stored.slug = i.slug) :
    s.update i = .ok (i.version + 1,
      { s with records := s.records.insert i.id { i with version := i.version + 1 } }) := by
  have howned : s.owned? i.tenant i.id = some stored := owned?_eq_some_iff.2 ⟨hget, htenant⟩
  simp [update, howned, hversion, hslug, reindex]

/-- A record with another version than the stored one is refused for that. -/
theorem update_of_stale {s : Store} {i stored : Instance} (hget : s.records.get? i.id = some stored)
    (htenant : stored.tenant = i.tenant) (hversion : stored.version ≠ i.version) :
    s.update i = .error (.staleVersion i.id stored.version i.version) := by
  have howned : s.owned? i.tenant i.id = some stored := owned?_eq_some_iff.2 ⟨hget, htenant⟩
  simp [update, howned, hversion]

def delete (s : Store) (tenant id : String) : Except Failure Store :=
  match s.owned? tenant id with
  | none => .error (.noInstance id)
  | some stored =>
    .ok { records := s.records.erase id, slugs := s.slugs.erase ⟨tenant, stored.slug⟩ }

theorem delete_eq_ok {s s' : Store} {tenant id : String} (h : s.delete tenant id = .ok s') :
    ∃ stored, s.records.get? id = some stored ∧ stored.tenant = tenant ∧
      s' = { records := s.records.erase id, slugs := s.slugs.erase ⟨tenant, stored.slug⟩ } := by
  unfold delete at h
  split at h
  · cases h
  · rename_i stored hs
    obtain ⟨hget, htenant⟩ := owned?_eq_some_iff.1 hs
    cases h
    exact ⟨stored, hget, htenant, rfl⟩

theorem delete_of_stored {s : Store} {tenant id : String} {stored : Instance}
    (hget : s.records.get? id = some stored) (htenant : stored.tenant = tenant) :
    s.delete tenant id =
      .ok { records := s.records.erase id, slugs := s.slugs.erase ⟨tenant, stored.slug⟩ } := by
  simp [delete, owned?_eq_some_iff.2 ⟨hget, htenant⟩]

def count (s : Store) (tenant : String) : Nat :=
  (s.records.values.filter (·.tenant = tenant)).length

end Store

end Fleet
