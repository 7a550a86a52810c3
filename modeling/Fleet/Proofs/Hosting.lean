import Fleet.Provider.Local

/-!
# A provider does what it was told

A `Course` is a provider with the jobs that it was given, the latest first: commands, with what it answered.
What it holds of an instance is read off the jobs for that instance that were carried out (`Accounts`):

    times .provision id jobs = times .deprovision id jobs + if w?.isSome then 1 else 0    (Accounts.tally)
    w.restarts = .ofNat (times .restart id (sinceProvision id jobs))                    (Recalls.restarts)

A job that fails, or is about another instance, counts for nothing in the account and changes nothing that
it tells of (`Accounts.idle`), and one that is carried out keeps it (`Accounts.carried_out`). So any course
is accounted for (`Course.accounts`, `Course.does_as_told`). -/

namespace Fleet.Provider

/-- The state that a task puts a workload in. -/
def Task.state? : Task → Option State
  | .provision => some .provisioning
  | .start | .restart => some .running
  | .stop => some .stopped
  | _ => none

/-- A command with what it was answered. -/
structure Job where
  command : Command
  answer : Except Error command.Reply

namespace Job

/-- Whether a job was a task for an instance that was carried out. -/
def did (t : Task) (id : String) (j : Job) : Bool :=
  j.command.target = id && j.answer.isOk && j.command.task = t

/-- The state in which a job put the workload of an instance. -/
def set? (id : String) (j : Job) : Option State :=
  if j.command.target = id && j.answer.isOk then j.command.task.state? else none

/-- The endpoints that a job resolved for an instance. -/
def resolved? (id : String) : Job → Option (List Endpoint)
  | ⟨.provision o, .ok made⟩ => if o.instanceId = id then some made.endpoints else none
  | _ => none

end Job

/-- How often a task was carried out for an instance. -/
def times (t : Task) (id : String) (jobs : List Job) : Nat := jobs.countP (·.did t id)

/-- The jobs since an instance was last provisioned, the latest first. -/
def sinceProvision (id : String) (jobs : List Job) : List Job :=
  jobs.takeWhile fun j => !j.did .provision id

/-- What happens to a provider: it is given a command, or one of its tasks is set to fail or recovers. -/
inductive Move where
  | command (c : Command)
  | failOn (t : Task)
  | recover (t : Task)

/-- A provider with the jobs it was given so far, the latest first. -/
structure Course where
  provider : Local
  jobs : List Job := []

namespace Course

/-- The course after one more move. -/
def move (c : Course) : Move → Course
  | .command k =>
    { provider := (c.provider.handle k).2, jobs := ⟨k, (c.provider.handle k).1⟩ :: c.jobs }
  | .failOn t => { c with provider := c.provider.failOn t }
  | .recover t => { c with provider := c.provider.recover t }

/-- What moves make of a provider of a name that began empty, the first move first. -/
def after (name : String) (moves : List Move) : Course := moves.foldl move { provider := { name } }

/-- What every move keeps holds after any moves. -/
theorem induct {P : Course → Prop} {name : String} (hstart : P { provider := { name } })
    (hmove : ∀ c m, P c → P (c.move m)) (moves : List Move) : P (after name moves) := by
  have hgo : ∀ c, P c → P (moves.foldl move c) := by
    induction moves with
    | nil => exact fun c hc => hc
    | cons m rest ih => exact fun c hc => ih (c.move m) (hmove c m hc)
  exact hgo _ hstart

end Course

/-! ## What a command that is carried out does -/

namespace Local

variable {p : Local}

/-- A workload is provisioned where there was none, with the endpoints of its ports. -/
theorem provision_eq_ok {o : Order} {made : Provisioned}
    (h : (p.handle (.provision o)).1 = .ok made) :
    p.workloads.get? o.instanceId = none ∧ made.endpoints = o.ports.map (p.endpointOf o) := by
  rw [handle_eq_ok h] at h
  simp only [perform] at h
  split at h
  · cases h
  · rename_i hnew
    cases h
    exact ⟨Option.not_isSome_iff_eq_none.1 hnew, rfl⟩

/-- A status is that of the workload, which stays as it is. -/
theorem status_eq_ok {id : String} {st : Status} (h : (p.handle (.status id)).1 = .ok st) :
    (p.handle (.status id)).2.workloads = p.workloads ∧
      ∃ w, p.workloads.get? id = some w ∧ st.state = w.state ∧ st.ready = decide (w.state = .running) ∧
        st.restarts = w.restarts ∧ st.endpoints = w.endpoints := by
  have hdone := handle_eq_ok h
  rw [hdone] at h ⊢
  simp only [perform] at h ⊢
  split at h
  · rename_i w hw
    cases h
    exact ⟨rfl, w, hw, rfl, rfl, rfl, rfl⟩
  · cases h

theorem change_ok_iff {id : String} {f : Workload → Workload} :
    (∃ a, (p.change id f).1 = .ok a) ↔ p.workloads.contains id = true := by
  unfold change Dict.contains
  cases p.workloads.get? id with
  | none => simp
  | some w => simp

/-- A command is carried out when its task is not set to fail and there is a workload, or none yet if the
command is to provision it. -/
theorem handle_ok_iff {c : Command} : (∃ a, (p.handle c).1 = .ok a) ↔
    c.task ∉ p.failing ∧ (p.workloads.contains c.target = true ↔ c.task ≠ .provision) := by
  unfold handle
  by_cases hfails : c.task ∈ p.failing
  · simp [hfails]
  · have hcontains : p.failing.contains c.task = false := by simpa using hfails
    simp only [hcontains, Bool.false_eq_true, if_false, hfails, not_false_eq_true, true_and]
    cases c with
    | provision o =>
      simp only [perform, note, Command.target, Command.task]
      by_cases hthere : p.workloads.contains o.instanceId = true
      · simp [hthere]
      · simp [hthere]
    | deprovision id =>
      simp only [perform, note, Command.target, Command.task]
      by_cases hthere : p.workloads.contains id = true
      · simp [hthere]
      · simp [hthere]
    | status id =>
      simp only [perform, note, Command.target, Command.task, Dict.contains]
      cases p.workloads.get? id with
      | none => simp
      | some w => simp
    | start id | stop id | restart id | scale id resources =>
      simp only [perform, Command.task]
      exact change_ok_iff.trans (by simp [note, Command.target])

theorem failOn_keeps (p : Local) (t : Task) :
    (p.failOn t).workloads = p.workloads ∧ (p.failOn t).calls = p.calls := by
  unfold failOn
  split <;> exact ⟨rfl, rfl⟩

end Local

/-! ## The account of an instance -/

section

variable {id : String} {j : Job} {jobs : List Job}

theorem times_cons (t : Task) : times t id (j :: jobs) =
    times t id jobs + if j.did t id = true then 1 else 0 := List.countP_cons

theorem Job.did_own {c : Command} (htarget : c.target = id) (a : c.Reply) (t : Task) :
    Job.did t id ⟨c, .ok a⟩ = decide (c.task = t) := by
  simp [did, htarget, Except.isOk, Except.toBool]

theorem Job.set?_own {c : Command} (htarget : c.target = id) (a : c.Reply) :
    Job.set? id ⟨c, .ok a⟩ = c.task.state? := by
  simp [set?, htarget, Except.isOk, Except.toBool]

theorem Job.resolved?_eq_none {c : Command} (hc : decide (c.task = .provision) = false)
    (a : c.Reply) : Job.resolved? id ⟨c, .ok a⟩ = none := by
  cases c with
  | provision o => cases hc
  | _ => rfl

/-- Whether a job counts for nothing in the account of an instance. -/
def Job.Idle (id : String) (j : Job) : Prop := j.command.target ≠ id ∨ ∃ e, j.answer = .error e

theorem Job.Idle.did (h : j.Idle id) (t : Task) : j.did t id = false := by
  unfold Job.did
  rcases h with htarget | ⟨e, hanswer⟩
  · simp [htarget]
  · simp [hanswer, Except.isOk, Except.toBool]

theorem Job.Idle.set? (h : j.Idle id) : j.set? id = none := by
  unfold Job.set?
  rcases h with htarget | ⟨e, hanswer⟩
  · simp [htarget]
  · simp [hanswer, Except.isOk, Except.toBool]

theorem Job.Idle.resolved? (h : j.Idle id) : j.resolved? id = none := by
  obtain ⟨command, answer⟩ := j
  rcases h with htarget | ⟨e, hanswer⟩
  · unfold Job.resolved?
    split
    · rename_i o made heq
      cases heq
      exact if_neg htarget
    · rfl
  · obtain rfl : answer = .error e := hanswer
    cases command <;> rfl

end

/-- Whether jobs account for a workload of an instance. -/
structure Recalls (jobs : List Job) (id : String) (w : Workload) : Prop where
  state : jobs.findSome? (·.set? id) = some w.state
  restarts : w.restarts = .ofNat (times .restart id (sinceProvision id jobs))
  endpoints : jobs.findSome? (·.resolved? id) = some w.endpoints

/-- Whether jobs account for what there is of an instance. -/
structure Accounts (jobs : List Job) (id : String) (w? : Option Workload) : Prop where
  tally : times .provision id jobs = times .deprovision id jobs + if w?.isSome then 1 else 0
  recalls : ∀ w, w? = some w → Recalls jobs id w

section

variable {id : String} {j : Job} {jobs : List Job} {w w' : Workload} {w? : Option Workload}

/-- A job that provisions nothing sets the state, or counts a restart, of the workload that there is. -/
theorem Recalls.cons (h : Recalls jobs id w) (hprovision : j.did .provision id = false)
    (hresolved : j.resolved? id = none) (hstate : w'.state = (j.set? id).getD w.state)
    (hrestarts : w'.restarts = w.restarts + if j.did .restart id = true then 1 else 0)
    (hendpoints : w'.endpoints = w.endpoints) : Recalls (j :: jobs) id w' where
  state := by
    rw [List.findSome?_cons, hstate]
    cases j.set? id with
    | none => exact h.state
    | some state => rfl
  restarts := by
    rw [sinceProvision, List.takeWhile_cons_of_pos (by rw [hprovision]; rfl), times_cons, hrestarts,
      h.restarts, UInt32.ofNat_add]
    split <;> rfl
  endpoints := by
    rw [List.findSome?_cons, hresolved, hendpoints]
    exact h.endpoints

namespace Accounts

theorem nil (id : String) : Accounts [] id none where
  tally := rfl
  recalls w hw := by cases hw

/-- A job that fails, or is about another instance, leaves the account as it is. -/
theorem idle (h : Accounts jobs id w?) (hj : j.Idle id) : Accounts (j :: jobs) id w? where
  tally := by
    rw [times_cons, times_cons, hj.did, hj.did]
    exact h.tally
  recalls w hw := by
    refine (h.recalls w hw).cons (hj.did _) hj.resolved? ?_ ?_ rfl
    · rw [hj.set?]
      rfl
    · rw [hj.did]
      exact (UInt32.add_zero _).symm

theorem provisioned (h : Accounts jobs id none) {o : Order} (htarget : o.instanceId = id)
    (made : Provisioned) : Accounts (⟨.provision o, .ok made⟩ :: jobs) id
      (some { state := .provisioning, resources := o.resources, endpoints := made.endpoints }) := by
  have hdid := Job.did_own (c := .provision o) htarget made
  refine ⟨?_, fun w hw => ?_⟩
  · rw [times_cons, times_cons, hdid, hdid, h.tally]
    rfl
  · cases hw
    refine ⟨?_, ?_, ?_⟩
    · rw [List.findSome?_cons, Job.set?_own (c := .provision o) htarget]
      rfl
    · have hborn : Job.did .provision id ⟨.provision o, .ok made⟩ = true := hdid .provision
      rw [sinceProvision, List.takeWhile_cons_of_neg (by simp [hborn])]
      rfl
    · have hresolved : Job.resolved? id ⟨.provision o, .ok made⟩ = some made.endpoints :=
        if_pos htarget
      rw [List.findSome?_cons, hresolved]

theorem deprovisioned (h : Accounts jobs id (some w)) :
    Accounts (⟨.deprovision id, .ok ()⟩ :: jobs) id none where
  tally := by
    have hdid (t : Task) : Job.did t id ⟨.deprovision id, .ok ()⟩ = decide (.deprovision = t) :=
      Job.did_own rfl () t
    rw [times_cons, times_cons, hdid, hdid, h.tally]
    rfl
  recalls w hw := by cases hw

/-- A task for a workload that was there and is there afterwards. -/
theorem kept (h : Accounts jobs id (some w)) {c : Command} (htarget : c.target = id) (a : c.Reply)
    (hprovision : decide (c.task = .provision) = false)
    (hdeprovision : decide (c.task = .deprovision) = false)
    (hstate : w'.state = c.task.state?.getD w.state)
    (hrestarts : w'.restarts = w.restarts + if c.task = .restart then 1 else 0)
    (hendpoints : w'.endpoints = w.endpoints) : Accounts (⟨c, .ok a⟩ :: jobs) id (some w') where
  tally := by
    rw [times_cons, times_cons, Job.did_own htarget, Job.did_own htarget, hprovision, hdeprovision]
    exact h.tally
  recalls r hr := by
    cases hr
    refine (h.recalls w rfl).cons ?_ (Job.resolved?_eq_none hprovision a) ?_ ?_ hendpoints
    · rw [Job.did_own htarget, hprovision]
    · rw [Job.set?_own htarget, hstate]
    · simp only [Job.did_own htarget, decide_eq_true_eq, hrestarts]

/-- What a command that is carried out makes of the account of its instance. -/
theorem carried_out {p : Local} {c : Command} (htarget : c.target = id) {a : c.Reply}
    (h : Accounts jobs id (p.workloads.get? id)) (hc : (p.handle c).1 = .ok a) :
    Accounts (⟨c, .ok a⟩ :: jobs) id ((p.handle c).2.workloads.get? id) := by
  subst htarget
  cases c with
  | provision o =>
    have hnone : p.workloads.get? o.instanceId = none := (Local.provision_eq_ok hc).1
    have hafter := congrArg (Dict.get? · o.instanceId) (Local.handle_provision hc).2
    simp only [Command.target, Dict.get?_insert, if_true] at h hafter ⊢
    rw [hnone] at h
    rw [hafter]
    exact h.provisioned rfl a
  | deprovision target =>
    obtain ⟨⟨w, hw⟩, hnone⟩ := Local.deprovision_eq_ok hc
    simp only [Command.target] at h ⊢
    rw [hw] at h
    rw [hnone]
    exact h.deprovisioned
  | status target =>
    obtain ⟨hsame, w, hw, -⟩ := Local.status_eq_ok hc
    simp only [Command.target] at h ⊢
    rw [hw] at h
    rw [hsame, hw]
    exact h.kept rfl a rfl rfl rfl (UInt32.add_zero _).symm rfl
  | restart target =>
    obtain ⟨w, hw, hafter⟩ := Local.handle_change rfl hc
    rw [hw] at h
    rw [hafter, Dict.get?_insert, if_pos rfl]
    exact h.kept rfl a rfl rfl rfl rfl rfl
  | start target | stop target | scale target resources =>
    obtain ⟨w, hw, hafter⟩ := Local.handle_change rfl hc
    rw [hw] at h
    rw [hafter, Dict.get?_insert, if_pos rfl]
    exact h.kept rfl a rfl rfl rfl (UInt32.add_zero _).symm rfl

end Accounts

end

/-! ## A provider over time -/

/-- What a move adds to the calls that the provider noted. -/
def Move.call? : Move → Option (Task × String)
  | .command k => some (k.task, k.target)
  | .failOn _ | .recover _ => none

namespace Course

theorem accounts_move {c : Course} {id : String}
    (h : Accounts c.jobs id (c.provider.workloads.get? id)) (m : Move) :
    Accounts (c.move m).jobs id ((c.move m).provider.workloads.get? id) := by
  cases m with
  | failOn t =>
    simp only [move, (c.provider.failOn_keeps t).1]
    exact h
  | recover t => exact h
  | command k =>
    simp only [move]
    by_cases htarget : k.target = id
    · cases hanswer : (c.provider.handle k).1 with
      | ok a => exact h.carried_out htarget hanswer
      | error e =>
        rw [Local.handle_eq_error hanswer]
        exact h.idle (.inr ⟨e, rfl⟩)
    · rw [Local.get?_handle_of_ne htarget]
      exact h.idle (.inl htarget)

theorem accounts (name : String) (moves : List Move) (id : String) :
    Accounts (after name moves).jobs id ((after name moves).provider.workloads.get? id) :=
  induct (P := fun c => Accounts c.jobs id (c.provider.workloads.get? id)) (.nil id)
    (fun _ m h => accounts_move h m) moves

theorem calls_foldl (moves : List Move) (c : Course) : (moves.foldl move c).provider.calls =
    c.provider.calls ++ moves.filterMap Move.call? := by
  induction moves generalizing c with
  | nil => exact (List.append_nil _).symm
  | cons m rest ih =>
    rw [List.foldl_cons, ih]
    cases m with
    | command k => simp [move, Move.call?]
    | failOn t => simp [move, Move.call?, Local.failOn_keeps, List.filterMap_cons]
    | recover t => rfl

/-- Whatever a provider was told, and whatever was set to fail or recovered in between: it noted every
command in order. A command is carried out when its task is not set to fail and the workload is there, or
is not there yet when it is to be provisioned; one that fails changes no workload, and none changes the
workload of another instance. An instance has a workload when it was provisioned once more than it was
deprovisioned, and else as often. And a status tells the state that the last command which sets it has
set, the restarts since the workload was provisioned, and the endpoints that were resolved then. -/
theorem does_as_told (name : String) (moves : List Move) :
    let c := after name moves
    let p := c.provider
    p.calls = moves.filterMap Move.call? ∧
    (∀ k, (∃ a, (p.handle k).1 = .ok a) ↔
      k.task ∉ p.failing ∧ (p.workloads.contains k.target = true ↔ k.task ≠ .provision)) ∧
    (∀ k e, (p.handle k).1 = .error e → (p.handle k).2.workloads = p.workloads) ∧
    (∀ k id, k.target ≠ id → (p.handle k).2.workloads.get? id = p.workloads.get? id) ∧
    (∀ id, times .provision id c.jobs =
      times .deprovision id c.jobs + if p.workloads.contains id then 1 else 0) ∧
    (∀ o made, (p.handle (.provision o)).1 = .ok made → made.endpoints = o.ports.map (p.endpointOf o)) ∧
    ∀ id st, (p.handle (.status id)).1 = .ok st →
      c.jobs.findSome? (·.set? id) = some st.state ∧
      (st.ready = true ↔ st.state = .running) ∧
      (times .restart id (sinceProvision id c.jobs) < UInt32.size →
        st.restarts.toNat = times .restart id (sinceProvision id c.jobs)) ∧
      c.jobs.findSome? (·.resolved? id) = some st.endpoints := by
  intro c p
  refine ⟨?_, fun k => Local.handle_ok_iff, fun k e => Local.handle_eq_error,
    fun k id => Local.get?_handle_of_ne, fun id => (accounts name moves id).tally,
    fun o made h => (Local.provision_eq_ok h).2, fun id st hst => ?_⟩
  · exact calls_foldl moves _
  · obtain ⟨-, w, hw, hstate, hready, hrestarts, hendpoints⟩ := Local.status_eq_ok hst
    have hrecalls := (accounts name moves id).recalls w hw
    refine ⟨hstate ▸ hrecalls.state, ?_, fun hfew => ?_, hendpoints ▸ hrecalls.endpoints⟩
    · rw [hready, hstate, decide_eq_true_eq]
    · rw [hrestarts, hrecalls.restarts, UInt32.toNat_ofNat_of_lt' hfew]

/-- What is to be provisioned under an id with one port. -/
def orderOf (id name : String) (port : UInt16) : Order :=
  { instanceId := id, tenant := "acme", name, image := "nginx", resources := {}, ports := [.tcp port] }

/-- A workload is restarted, fails to stop, is taken away, is asked for in vain, and is provisioned again. -/
def relaunched : List Move :=
  [.command (.provision (orderOf "inst_1" "Web" 80)), .command (.start "inst_1"),
    .command (.restart "inst_1"), .command (.restart "inst_1"), .failOn .stop,
    .command (.stop "inst_1"), .command (.deprovision "inst_1"), .command (.start "inst_1"),
    .recover .stop, .command (.provision (orderOf "inst_1" "Shop" 8080)),
    .command (.restart "inst_1"), .command (.stop "inst_1")]

theorem does_as_told_relaunched :
    let c := after "local" relaunched
    times .restart "inst_1" (sinceProvision "inst_1" c.jobs) < UInt32.size ∧
      c.provider.calls.length = 10 ∧ times .provision "inst_1" c.jobs = 2 ∧
      times .deprovision "inst_1" c.jobs = 1 ∧
      ∃ st, (c.provider.handle (.status "inst_1")).1 = .ok st ∧ st.state = .stopped ∧
        ¬ st.ready = true ∧ st.restarts.toNat = 1 ∧
        st.endpoints = (orderOf "inst_1" "Shop" 8080).ports.map
          (c.provider.endpointOf (orderOf "inst_1" "Shop" 8080)) := by
  intro c
  obtain ⟨hcalls, hok, -, -, htally, -, hstatus⟩ := does_as_told "local" relaunched
  have hthere : c.provider.workloads.contains "inst_1" = true := by decide +kernel
  have hcount : times .restart "inst_1" (sinceProvision "inst_1" c.jobs) = 1 := by decide +kernel
  have hremoved : times .deprovision "inst_1" c.jobs = 1 := by decide +kernel
  have hset : c.jobs.findSome? (·.set? "inst_1") = some .stopped := by decide +kernel
  have hresolved : c.jobs.findSome? (·.resolved? "inst_1") = some
      ((orderOf "inst_1" "Shop" 8080).ports.map
        (c.provider.endpointOf (orderOf "inst_1" "Shop" 8080))) := by decide +kernel
  have hprovisioned := htally "inst_1"
  rw [if_pos hthere, hremoved] at hprovisioned
  obtain ⟨st, hst⟩ := (hok (.status "inst_1")).2
    ⟨by decide +kernel, ⟨fun _ => by decide, fun _ => hthere⟩⟩
  obtain ⟨hstate, hready, hrestarts, hendpoints⟩ := hstatus "inst_1" st hst
  have hfew : times .restart "inst_1" (sinceProvision "inst_1" c.jobs) < UInt32.size := by
    rw [hcount]
    decide
  have hstopped : st.state = .stopped := Option.some.inj (hstate.symm.trans hset)
  refine ⟨hfew, congrArg List.length hcalls, hprovisioned, hremoved, st, hst, hstopped, fun h => ?_,
    (hrestarts hfew).trans hcount, Option.some.inj (hendpoints.symm.trans hresolved)⟩
  rw [hready, hstopped] at h
  cases h

end Course

end Fleet.Provider
