import Fleet.Failure
import Fleet.Provider.Local

/-!
# The directory of providers

Providers by the name they are registered under, and the name of the one that is meant when a request
names none.
-/

namespace Fleet.Provider

/-- Providers by name, with an optional default. -/
structure Directory where
  providers : Dict String Local := .empty
  fallback : Option String := none
  deriving DecidableEq, Inhabited

namespace Directory

/-- Registers a provider under a name, in place of one that was there. -/
def register (d : Directory) (name : String) (p : Local) : Directory :=
  { d with providers := d.providers.insert name p }

def setDefault (d : Directory) (name : String) : Directory := { d with fallback := some name }

def lookup (d : Directory) (name : String) : Except Failure Local :=
  match d.providers.get? name with
  | some p => .ok p
  | none => .error (.noProvider name)

def default (d : Directory) : Except Failure (String × Local) :=
  match d.fallback with
  | none => .error .noDefaultProvider
  | some name => (d.lookup name).map (name, ·)

/-- The provider of a name, or the default one when there is no name or an empty one. -/
def resolve (d : Directory) (name : Option String) : Except Failure (String × Local) :=
  match name with
  | some name => if name = "" then d.default else (d.lookup name).map (name, ·)
  | none => d.default

def names (d : Directory) : List String := d.providers.keys

def command (d : Directory) (name : String) (c : Command) : Except Error c.Reply × Directory :=
  match d.providers.get? name with
  | some p =>
    let (answer, p) := p.handle c
    (answer, { d with providers := d.providers.insert name p })
  | none => (.error (.unavailable ("no provider " ++ name)), d)

def adjust (d : Directory) (name : String) (f : Local → Local) : Directory :=
  match d.providers.get? name with
  | some p => { d with providers := d.providers.insert name (f p) }
  | none => d

/-! ## Which workloads there are -/

def Hosts (d : Directory) (name id : String) : Prop :=
  ∃ p w, d.providers.get? name = some p ∧ p.workloads.get? id = some w

theorem hosts_of_command {d : Directory} {name name' id : String} {c : Command}
    (h : (d.command name c).2.Hosts name' id) :
    d.Hosts name' id ∨ ∃ o, c = .provision o ∧ name' = name ∧ id = o.instanceId := by
  unfold command at h
  split at h
  · rename_i p hp
    obtain ⟨p', w, hp', hw⟩ := h
    rw [Dict.get?_insert] at hp'
    split at hp'
    · rename_i hname
      cases hp'
      rcases Local.get?_handle hw with ⟨w', hw'⟩ | ⟨o, rfl, hid⟩
      · exact .inl ⟨p, w', hname ▸ hp, hw'⟩
      · exact .inr ⟨o, rfl, hname.symm, hid⟩
    · exact .inl ⟨p', w, hp', hw⟩
  · exact .inl h

theorem hosts_of_deprovision {d : Directory} {name id : String}
    (h : (d.command name (.deprovision id)).1 = .ok ()) :
    d.Hosts name id ∧ ¬ (d.command name (.deprovision id)).2.Hosts name id := by
  unfold command at h ⊢
  split at h
  · rename_i p hp
    obtain ⟨⟨w, hw⟩, hnone⟩ := Local.deprovision_eq_ok h
    refine ⟨⟨p, w, hp, hw⟩, ?_⟩
    rintro ⟨p', w', hp', hw'⟩
    simp only [Dict.get?_insert, if_true, Option.some.injEq] at hp'
    subst hp'
    rw [hnone] at hw'
    cases hw'
  · cases h

theorem hosts_of_adjust {d : Directory} {name name' id : String} {f : Local → Local}
    (hf : ∀ p, (f p).workloads = p.workloads) (h : (d.adjust name f).Hosts name' id) :
    d.Hosts name' id := by
  unfold adjust at h
  split at h
  · rename_i p hp
    obtain ⟨p', w, hp', hw⟩ := h
    rw [Dict.get?_insert] at hp'
    split at hp'
    · rename_i hname
      cases hp'
      rw [hf] at hw
      exact ⟨p, w, hname ▸ hp, hw⟩
    · exact ⟨p', w, hp', hw⟩
  · exact h

/-! ## Workloads by provider and instance -/

def hosted (d : Directory) (name id : String) : Option Workload :=
  (d.providers.get? name).bind (·.workloads.get? id)

/-- What the provider of a name calls itself. -/
def nameOf (d : Directory) (name : String) : Option String := (d.providers.get? name).map (·.name)

theorem command_of_get? {d : Directory} {name : String} {p : Local}
    (h : d.providers.get? name = some p) (c : Command) : d.command name c =
      ((p.handle c).1, { d with providers := d.providers.insert name (p.handle c).2 }) := by
  unfold command
  rw [h]

theorem nameOf_command (d : Directory) (name : String) (c : Command) (n : String) :
    (d.command name c).2.nameOf n = d.nameOf n := by
  cases hp : d.providers.get? name with
  | none =>
    unfold command
    rw [hp]
  | some p =>
    rw [command_of_get? hp]
    simp only [nameOf, Dict.get?_insert]
    split
    · rename_i hn
      rw [← hn, hp, Option.map_some, Option.map_some, Local.name_handle]
    · rfl

/-- What a command may make of the workloads: those of its provider are what it leaves of them. -/
theorem hosted_command {d : Directory} {name : String} {p : Local}
    (h : d.providers.get? name = some p) (c : Command) (n id : String) :
    (d.command name c).2.hosted n id =
      if n = name then (p.handle c).2.workloads.get? id else d.hosted n id := by
  rw [command_of_get? h]
  simp only [hosted, Dict.get?_insert]
  by_cases hn : n = name
  · rw [if_pos hn.symm, if_pos hn]
    rfl
  · rw [if_neg (Ne.symm hn), if_neg hn]

section

variable {d : Directory} {name : String} {p : Local} (h : d.providers.get? name = some p)
  {c : Command}

include h

theorem hosted_of_get? (id : String) : d.hosted name id = p.workloads.get? id := by
  rw [hosted, h]
  rfl

theorem hosted_of_error {e : Error} (hc : (d.command name c).1 = .error e) (n id : String) :
    (d.command name c).2.hosted n id = d.hosted n id := by
  rw [hosted_command h]
  rw [command_of_get? h] at hc
  split
  · rename_i hn
    rw [Local.handle_eq_error hc, hn, hosted_of_get? h]
  · rfl

/-- A command that touches one workload of its provider touches no other anywhere. -/
theorem hosted_of_target {target : String} {w : Option Workload}
    (hw : ∀ id, (p.handle c).2.workloads.get? id = if target = id then w else p.workloads.get? id)
    (n id : String) : (d.command name c).2.hosted n id =
      if n = name ∧ id = target then w else d.hosted n id := by
  rw [hosted_command h, hw]
  by_cases hn : n = name
  · by_cases hid : id = target
    · rw [if_pos hn, if_pos hid.symm, if_pos ⟨hn, hid⟩]
    · rw [if_pos hn, if_neg (Ne.symm hid), if_neg fun hboth => hid hboth.2, hn, hosted_of_get? h]
  · rw [if_neg hn, if_neg fun hboth => hn hboth.1]

theorem hosted_of_change {f : Workload → Workload} (hf : c.change? = some f) {a : c.Reply}
    (hc : (d.command name c).1 = .ok a) : ∃ w, d.hosted name c.target = some w ∧
      ∀ n id, (d.command name c).2.hosted n id =
        if n = name ∧ id = c.target then some (f w) else d.hosted n id := by
  rw [command_of_get? h] at hc
  obtain ⟨w, hw, hafter⟩ := Local.handle_change hf hc
  refine ⟨w, (hosted_of_get? h _).trans hw, hosted_of_target h fun id => ?_⟩
  rw [hafter, Dict.get?_insert]

theorem hosted_of_provision {o : Order} {made : Provisioned}
    (hc : (d.command name (.provision o)).1 = .ok made) :
    made.ref = p.name ++ "-" ++ o.instanceId ∧
      ∀ n id, (d.command name (.provision o)).2.hosted n id =
        if n = name ∧ id = o.instanceId then
          some { state := .provisioning, resources := o.resources, endpoints := made.endpoints }
        else d.hosted n id := by
  rw [command_of_get? h] at hc
  obtain ⟨href, hafter⟩ := Local.handle_provision hc
  refine ⟨href, hosted_of_target h fun id => ?_⟩
  rw [hafter, Dict.get?_insert]

theorem hosted_of_removal {target : String}
    (hc : (d.command name (.deprovision target)).1 = .ok ()) (n id : String) :
    (d.command name (.deprovision target)).2.hosted n id =
      if n = name ∧ id = target then none else d.hosted n id := by
  rw [command_of_get? h] at hc
  refine hosted_of_target h (fun id => ?_) n id
  rw [Local.handle_deprovision hc, Dict.get?_erase]

end

/-- A change of a provider that keeps its name and its workloads. -/
theorem adjust_keeps {d : Directory} {name : String} {f : Local → Local}
    (hf : ∀ p : Local, (f p).workloads = p.workloads ∧ (f p).name = p.name) (n : String) :
    (d.adjust name f).nameOf n = d.nameOf n ∧ ∀ id, (d.adjust name f).hosted n id = d.hosted n id := by
  unfold adjust
  cases hp : d.providers.get? name with
  | none => exact ⟨rfl, fun id => rfl⟩
  | some p =>
    simp only [nameOf, hosted, Dict.get?_insert]
    by_cases hn : name = n
    · rw [if_pos hn, ← hn, hp]
      exact ⟨congrArg some (hf p).2, fun id => congrArg (·.get? id) (hf p).1⟩
    · rw [if_neg hn]
      exact ⟨rfl, fun id => rfl⟩

end Directory

end Fleet.Provider
