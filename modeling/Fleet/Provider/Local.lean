import Fleet.Provider.Basic

/-!
# The local provider

A provider that keeps its workloads in memory and runs nothing. It notes every command it is given,
also those that fail (`calls_handle`), and each task can be set to fail until it recovers. A workload
comes by being provisioned only (`get?_handle`), and one that was deprovisioned is gone
(`deprovision_eq_ok`).
-/

namespace Fleet.Provider

/-- A workload: how it runs, with what, how often it was restarted and where it is reached. -/
structure Workload where
  state : State
  resources : Resources
  restarts : UInt32 := 0
  endpoints : List Endpoint := []
  deriving DecidableEq, Repr, Inhabited

/-- A provider in memory. -/
structure Local where
  name : String
  workloads : Dict String Workload := .empty
  failing : List Task := []
  calls : List (Task × String) := []
  deriving DecidableEq, Inhabited

namespace Local

def info (p : Local) : Info := { name := p.name, version := "0.1.0", region := "local" }

def capabilities (_ : Local) : List Capability := [.provision, .scale]

def failOn (p : Local) (t : Task) : Local :=
  if p.failing.contains t then p else { p with failing := t :: p.failing }

def recover (p : Local) (t : Task) : Local :=
  { p with failing := p.failing.filter (· ≠ t) }

def callCount (p : Local) (t : Task) : Nat := (p.calls.filter (·.1 = t)).length

def hostOf (p : Local) (o : Order) : String :=
  Text.slug o.name ++ "." ++ o.tenant ++ "." ++ p.name ++ ".internal"

def endpointOf (p : Local) (o : Order) (port : Port) : Endpoint :=
  { url := port.protocol ++ "://" ++ p.hostOf o ++ ":" ++ toString port.exposed.toNat
    port := port.exposed
    protocol := port.protocol
    isPublic := port.host.isSome }

def change (p : Local) (id : String) (f : Workload → Workload) : Except Error Unit × Local :=
  match p.workloads.get? id with
  | some w => (.ok (), { p with workloads := p.workloads.insert id (f w) })
  | none => (.error (.workloadNotFound id), p)

/-- What a command does when its task is not set to fail. -/
def perform (p : Local) : (c : Command) → Except Error c.Reply × Local
  | .provision o =>
    if p.workloads.contains o.instanceId then
      (.error (.rejected ("workload " ++ o.instanceId ++ " already provisioned")), p)
    else
      let endpoints := o.ports.map (p.endpointOf o)
      let w : Workload := { state := .provisioning, resources := o.resources, endpoints }
      (.ok { ref := p.name ++ "-" ++ o.instanceId, endpoints },
       { p with workloads := p.workloads.insert o.instanceId w })
  | .deprovision id =>
    if p.workloads.contains id then (.ok (), { p with workloads := p.workloads.erase id })
    else (.error (.workloadNotFound id), p)
  | .start id => p.change id fun w => { w with state := .running }
  | .stop id => p.change id fun w => { w with state := .stopped }
  | .restart id => p.change id fun w => { w with state := .running, restarts := w.restarts + 1 }
  | .scale id resources => p.change id fun w => { w with resources }
  | .status id =>
    match p.workloads.get? id with
    | some w =>
      (.ok { state := w.state, ready := w.state = .running, restarts := w.restarts,
             endpoints := w.endpoints }, p)
    | none => (.error (.workloadNotFound id), p)

def note (p : Local) (c : Command) : Local := { p with calls := p.calls ++ [(c.task, c.target)] }

/-- What a command does: it is noted, and then fails if its task is set to fail. -/
def handle (p : Local) (c : Command) : Except Error c.Reply × Local :=
  if p.failing.contains c.task then
    (.error (.unavailable (c.task.name ++ " " ++ c.target ++ " failed on provider " ++ p.name)),
     p.note c)
  else (p.note c).perform c

@[simp] theorem calls_change (p : Local) (id : String) (f : Workload → Workload) :
    (p.change id f).2.calls = p.calls := by
  unfold change
  split <;> rfl

@[simp] theorem calls_perform (p : Local) (c : Command) : (p.perform c).2.calls = p.calls := by
  cases c <;> simp only [perform, calls_change]
  · split <;> rfl
  · split <;> rfl
  · split <;> rfl

@[simp] theorem calls_handle (p : Local) (c : Command) :
    (p.handle c).2.calls = p.calls ++ [(c.task, c.target)] := by
  unfold handle
  split <;> simp [note]

/-! ## Which workloads there are -/

theorem get?_change {p : Local} {id id' : String} {f : Workload → Workload} {w : Workload}
    (h : (p.change id f).2.workloads.get? id' = some w) : ∃ w', p.workloads.get? id' = some w' := by
  unfold change at h
  split at h
  · rename_i w' hw'
    rw [Dict.get?_insert] at h
    by_cases hid : id = id'
    · exact ⟨w', hid ▸ hw'⟩
    · rw [if_neg hid] at h
      exact ⟨w, h⟩
  · exact ⟨w, h⟩

/-- A command puts a workload where there was none only by provisioning it. -/
theorem get?_perform {p : Local} {c : Command} {id : String} {w : Workload}
    (h : (p.perform c).2.workloads.get? id = some w) :
    (∃ w', p.workloads.get? id = some w') ∨ ∃ o, c = .provision o ∧ id = o.instanceId := by
  cases c with
  | provision o =>
    simp only [perform] at h
    split at h
    · exact .inl ⟨w, h⟩
    · rw [Dict.get?_insert] at h
      by_cases hid : o.instanceId = id
      · exact .inr ⟨o, rfl, hid.symm⟩
      · rw [if_neg hid] at h
        exact .inl ⟨w, h⟩
  | deprovision id' =>
    simp only [perform] at h
    split at h
    · rw [Dict.get?_erase] at h
      split at h
      · cases h
      · exact .inl ⟨w, h⟩
    · exact .inl ⟨w, h⟩
  | start id' => exact .inl (get?_change h)
  | stop id' => exact .inl (get?_change h)
  | restart id' => exact .inl (get?_change h)
  | scale id' resources => exact .inl (get?_change h)
  | status id' =>
    simp only [perform] at h
    split at h <;> exact .inl ⟨w, h⟩

theorem get?_handle {p : Local} {c : Command} {id : String} {w : Workload}
    (h : (p.handle c).2.workloads.get? id = some w) :
    (∃ w', p.workloads.get? id = some w') ∨ ∃ o, c = .provision o ∧ id = o.instanceId := by
  unfold handle at h
  split at h
  · exact .inl ⟨w, h⟩
  · exact get?_perform (p := p.note c) h

/-- A workload that was taken away was there, and is there no more. -/
theorem deprovision_eq_ok {p : Local} {id : String}
    (h : (p.handle (.deprovision id)).1 = .ok ()) :
    (∃ w, p.workloads.get? id = some w) ∧
      (p.handle (.deprovision id)).2.workloads.get? id = none := by
  unfold handle at h ⊢
  split at h
  · cases h
  · rename_i hfailing
    rw [if_neg hfailing]
    simp only [perform] at h ⊢
    split at h
    · rename_i hcontains
      refine ⟨Option.isSome_iff_exists.1 hcontains, ?_⟩
      rw [if_pos hcontains]
      simp
    · cases h

/-! ## What a command does to a workload -/

@[simp] theorem name_change (p : Local) (id : String) (f : Workload → Workload) :
    (p.change id f).2.name = p.name := by
  unfold change
  split <;> rfl

@[simp] theorem name_perform (p : Local) (c : Command) : (p.perform c).2.name = p.name := by
  cases c <;> simp only [perform, name_change]
  · split <;> rfl
  · split <;> rfl
  · split <;> rfl

@[simp] theorem name_handle (p : Local) (c : Command) : (p.handle c).2.name = p.name := by
  unfold handle
  split
  · rfl
  · exact name_perform _ c

@[simp] theorem failing_change (p : Local) (id : String) (f : Workload → Workload) :
    (p.change id f).2.failing = p.failing := by
  unfold change
  split <;> rfl

@[simp] theorem failing_perform (p : Local) (c : Command) : (p.perform c).2.failing = p.failing := by
  cases c <;> simp only [perform, failing_change]
  · split <;> rfl
  · split <;> rfl
  · split <;> rfl

@[simp] theorem failing_handle (p : Local) (c : Command) : (p.handle c).2.failing = p.failing := by
  unfold handle
  split
  · rfl
  · exact failing_perform _ c

theorem change_eq_error {p : Local} {id : String} {f : Workload → Workload} {e : Error}
    (h : (p.change id f).1 = .error e) : (p.change id f).2 = p := by
  unfold change at h ⊢
  split at h
  · cases h
  · rfl

theorem change_eq_ok {p : Local} {id : String} {f : Workload → Workload}
    (h : (p.change id f).1 = .ok ()) : ∃ w, p.workloads.get? id = some w ∧
      (p.change id f).2.workloads = p.workloads.insert id (f w) := by
  unfold change at h ⊢
  split at h
  · rename_i w hw
    rw [hw]
    exact ⟨w, rfl, rfl⟩
  · cases h

theorem perform_eq_error {p : Local} {c : Command} {e : Error} (h : (p.perform c).1 = .error e) :
    (p.perform c).2 = p := by
  cases c with
  | provision o =>
    simp only [perform] at h ⊢
    split at h
    · rename_i hc
      rw [if_pos hc]
    · cases h
  | deprovision id =>
    simp only [perform] at h ⊢
    split at h
    · cases h
    · rename_i hc
      rw [if_neg hc]
  | start id => exact change_eq_error h
  | stop id => exact change_eq_error h
  | restart id => exact change_eq_error h
  | scale id resources => exact change_eq_error h
  | status id =>
    simp only [perform]
    split <;> rfl

/-- A command that fails leaves all workloads as they are. -/
theorem handle_eq_error {p : Local} {c : Command} {e : Error} (h : (p.handle c).1 = .error e) :
    (p.handle c).2.workloads = p.workloads := by
  unfold handle at h ⊢
  split at h
  · rename_i hf
    rw [if_pos hf]
    rfl
  · rename_i hf
    rw [if_neg hf, perform_eq_error h]
    rfl

/-- A command that was done did not have its task set to fail. -/
theorem handle_eq_ok {p : Local} {c : Command} {a : c.Reply} (h : (p.handle c).1 = .ok a) :
    p.handle c = (p.note c).perform c := by
  unfold handle at h ⊢
  split at h
  · cases h
  · rename_i hf
    rw [if_neg hf]

end Local

/-- What a command changes of a workload that stays. -/
def Command.change? : Command → Option (Workload → Workload)
  | .start _ => some fun w => { w with state := .running }
  | .stop _ => some fun w => { w with state := .stopped }
  | .restart _ => some fun w => { w with state := .running, restarts := w.restarts + 1 }
  | .scale _ resources => some fun w => { w with resources }
  | _ => none

namespace Local

variable {p : Local}

theorem handle_change {c : Command} {f : Workload → Workload} (hf : c.change? = some f) {a : c.Reply}
    (h : (p.handle c).1 = .ok a) : ∃ w, p.workloads.get? c.target = some w ∧
      (p.handle c).2.workloads = p.workloads.insert c.target (f w) := by
  have hdone := handle_eq_ok h
  rw [hdone] at h ⊢
  cases c with
  | start id | stop id | restart id | scale id resources =>
    cases hf
    exact change_eq_ok (p := p.note _) h
  | _ => cases hf

theorem handle_provision {o : Order} {made : Provisioned}
    (h : (p.handle (.provision o)).1 = .ok made) :
    made.ref = p.name ++ "-" ++ o.instanceId ∧ (p.handle (.provision o)).2.workloads =
      p.workloads.insert o.instanceId
        { state := .provisioning, resources := o.resources, endpoints := made.endpoints } := by
  have hdone := handle_eq_ok h
  rw [hdone] at h ⊢
  simp only [perform] at h ⊢
  split at h
  · cases h
  · rename_i hc
    rw [if_neg hc]
    cases h
    exact ⟨rfl, rfl⟩

theorem handle_deprovision {id : String} (h : (p.handle (.deprovision id)).1 = .ok ()) :
    (p.handle (.deprovision id)).2.workloads = p.workloads.erase id := by
  have hdone := handle_eq_ok h
  rw [hdone] at h ⊢
  simp only [perform] at h ⊢
  split at h
  · rename_i hc
    rw [if_pos hc]
    rfl
  · cases h

/-- A command leaves all workloads alone but the one that it is about. -/
theorem get?_handle_of_ne {c : Command} {id : String} (hid : c.target ≠ id) :
    (p.handle c).2.workloads.get? id = p.workloads.get? id := by
  cases hanswer : (p.handle c).1 with
  | error e => rw [handle_eq_error hanswer]
  | ok a =>
    cases c with
    | provision o =>
      rw [(handle_provision hanswer).2, Dict.get?_insert]
      exact if_neg hid
    | deprovision id' =>
      rw [handle_deprovision hanswer, Dict.get?_erase]
      exact if_neg hid
    | status id' =>
      rw [handle_eq_ok hanswer]
      simp only [perform]
      split <;> rfl
    | start id' | stop id' | restart id' | scale id' resources =>
      obtain ⟨w, -, hafter⟩ := handle_change rfl hanswer
      rw [hafter, Dict.get?_insert, if_neg hid]

end Local

end Fleet.Provider
