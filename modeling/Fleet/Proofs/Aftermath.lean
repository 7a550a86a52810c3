import Fleet.Proofs.Agreement

/-!
# What a failed request leaves behind

A request that fails leaves one of few traces (`Request.Leaves`), and which it is depends on the request
and on whether the provider failed: a refusal leaves none, and the failure of a provider leaves all
workloads as they are and a failed record at most (`failure_leaves_trace`). -/

namespace Fleet

open Service Provider

/-- What the failure of a provider leaves in the store, by request. -/
def Service.Request.Leaves (caller : Option Caller) (stamp : Stamp) (before after : Store) :
    Request → Prop
  | .create _ => ∃ who i, caller = some who ∧ before.records.get? i.id = none ∧
      after = before.add i ∧ i.tenant = who.tenant ∧ i.state = .failed ∧ i.version = 2 ∧
      i.providerRef = "" ∧ i.endpoints = []
  | .start id | .stop id | .delete id => ∃ i, before.records.get? id = some i ∧ i.id = id ∧
      after = before.put
        { i with state := .failed, updatedAt := stamp.second, version := i.version + 2 }
  | .restart id => ∃ i, before.records.get? id = some i ∧ i.id = id ∧
      after = before.put
        { i with state := .failed, updatedAt := stamp.first, version := i.version + 1 }
  | .scale _ _ | .suspend _ _ | .unsuspend _ => after = before
  | .get _ | .getBySlug _ | .list _ | .update _ _ => False

namespace Service

variable {w : Estate} {limit : UInt64} {caller : Option Caller} {stamp : Stamp}

/-- A record that was announced and then marked failed is two versions up. -/
theorem saved_twice (i : Instance) (s : State) (first second : Instant) :
    { { i with state := s }.saved first with state := .failed }.saved second =
      { i with state := .failed, updatedAt := second, version := i.version + 2 } := by
  have hversion : i.version + 1 + 1 = i.version + 2 := by
    rw [UInt64.add_assoc]
    rfl
  unfold Instance.saved Instance.touch
  simp only [hversion]

theorem Errand.leaves {q : Request} {e : Errand} (he : q.errand = some e) {who : Caller}
    {i : Instance} (ha : e.Admits caller w who i) (stamp : Stamp) :
    q.Leaves caller stamp w.store (w.store.put (e.ruined stamp i)) := by
  have hid := ha.id
  have hput := Store.put_self ha.stored
  have hstored : w.store.records.get? e.id = some i := by
    rw [← hid]
    exact ha.stored
  cases q with
  | start id | stop id | delete id =>
    cases he
    refine ⟨i, hstored, hid, ?_⟩
    exact congrArg w.store.put (saved_twice i _ _ _)
  | restart id =>
    cases he
    exact ⟨i, hstored, hid, rfl⟩
  | scale id r | suspend id reason | unsuspend id =>
    cases he
    exact hput
  | _ => cases he

theorem kind_of_isRefusal {f : Failure} (h : f.kind.isRefusal = true) :
    f.kind ≠ .providerUnavailable := by
  intro hk
  rw [hk] at h
  cases h

/-- What a failed end of a request leaves of the estate. -/
theorem Request.Comes.leaves {q : Request} {u : Upshot Reply} {f : Failure}
    (h : q.Comes limit caller stamp w u) (hf : u.reply = .error f) :
    (f.kind ≠ .providerUnavailable ∧ u.estate = w) ∨
      f.kind = .providerUnavailable ∧
        (∀ n id, u.estate.directory.hosted n id = w.directory.hosted n id) ∧
        q.Leaves caller stamp w.store u.estate.store := by
  cases h with
  | refused _ f' hr =>
    cases hf
    exact .inl ⟨kind_of_isRefusal hr, rfl⟩
  | overQuota r hwho hroom =>
    cases hf
    exact .inl ⟨by simp [Failure.kind], rfl⟩
  | shown reply hs => cases hf
  | updated id r hwho hi howner hc hs => cases hf
  | created ha made hc => cases hf
  | @unprovisioned r who provider ha cause hc =>
    cases hf
    obtain ⟨l, -, hl⟩ := ha.registered
    refine .inr ⟨rfl, Directory.hosted_of_error hl hc, ?_⟩
    exact ⟨who, stillborn who r provider stamp, ha.known, ha.fresh, rfl, rfl, rfl, rfl, rfl, rfl⟩
  | @errand _ e he _ hcomes =>
    cases hcomes with
    | refused f' hr =>
      cases hf
      exact .inl ⟨kind_of_isRefusal hr, rfl⟩
    | failed ha cause hc =>
      cases hf
      obtain ⟨l, hl⟩ := ha.registered
      exact .inr ⟨rfl, Directory.hosted_of_error hl hc, Errand.leaves he ha stamp⟩
    | settled ha edit hedit a hc => cases hf
    | removed ha hedit a hc => cases hf

end Service

namespace Plane

/-- Over a control plane that began with no records, a request that fails for anything but its provider
leaves the store, the workloads and the calls of all providers as they were. When its provider failed,
all workloads are as they were, and the store is as the request leaves it. -/
theorem failure_leaves_trace {start p p' : Plane} {deeds : List Deed} {caller : Option Caller}
    {stamp : Stamp} {q : Request} {f : Failure} (hs : start.store = .empty)
    (hp : p = (start.live deeds).1) (h : p.perform caller stamp q = (.error f, p')) :
    (f.kind ≠ .providerUnavailable → p'.store = p.store ∧ p'.directory = p.directory) ∧
      (f.kind = .providerUnavailable →
        (∀ n id, p'.directory.hosted n id = p.directory.hosted n id) ∧
          q.Leaves caller stamp p.store p'.store) := by
  have hfiled : p.store.Filed := by
    rw [hp]
    exact filed_live hs deeds
  obtain ⟨u, hcomes, hreply, hestate⟩ := perform_comes hfiled h
  have hstore : u.estate.store = p'.store := congrArg Estate.store hestate
  have hdirectory : u.estate.directory = p'.directory := congrArg Estate.directory hestate
  rw [← hstore, ← hdirectory]
  rcases hcomes.leaves hreply with ⟨hk, hsame⟩ | ⟨hk, hworkloads, hleaves⟩
  · rw [hsame]
    exact ⟨fun _ => ⟨rfl, rfl⟩, fun hunavailable => absurd hunavailable hk⟩
  · exact ⟨fun hne => absurd hk hne, fun _ => ⟨hworkloads, hleaves⟩⟩

/-- An instance was created, and its provider begins to fail to start workloads. -/
def spoiled : List Deed :=
  [deed "inst_1" "evt_1" (.create { name := "Web", image := "nginx" }),
    .weather (.fails "local" .start)]

/-- What the request of a start is stamped with after that. -/
def spoiledStamp : Stamp :=
  { instanceId := "inst_2", eventId := "evt_2", clock := fun n => { seconds := n } }

theorem failure_leaves_trace_spoiled :
    Config.solo.store = .empty ∧ ∃ f p' i,
      (Config.solo.live spoiled).1.perform (some (.ofTenant "acme" "user-1")) spoiledStamp
        (.start "inst_1") = (.error f, p') ∧ f.kind = .providerUnavailable ∧
      (∀ n id, p'.directory.hosted n id = (Config.solo.live spoiled).1.directory.hosted n id) ∧
      (Config.solo.live spoiled).1.store.records.get? "inst_1" = some i ∧
      p'.store = (Config.solo.live spoiled).1.store.put
        { i with state := .failed, updatedAt := spoiledStamp.second, version := i.version + 2 } := by
  have hs : Config.solo.store = .empty := rfl
  have hkind : (match ((Config.solo.live spoiled).1.perform (some (.ofTenant "acme" "user-1"))
      spoiledStamp (.start "inst_1")).1 with
    | .error f => some f.kind
    | .ok _ => none) = some .providerUnavailable := by
    decide +kernel
  cases h : (Config.solo.live spoiled).1.perform (some (.ofTenant "acme" "user-1")) spoiledStamp
      (.start "inst_1") with
  | mk result p' =>
    rw [h] at hkind
    cases result with
    | ok reply =>
      cases hkind
    | error f =>
      have htrace := failure_leaves_trace hs rfl h
      obtain ⟨hworkloads, i, hi, -, hstore⟩ := htrace.2 (Option.some.inj hkind)
      exact ⟨hs, f, p', i, rfl, Option.some.inj hkind, hworkloads, hi, hstore⟩

end Plane

end Fleet
