import Fleet.Proofs.Agreement
import Fleet.Proofs.Chronicle

/-!
# Observers

Plugins, the audit trail, the metrics and the subscribers of the bus observe a control plane. At any
moment they may use the bus, close it, or have the control plane shut down (`Meddling`), also between
two calls of one request (`Plane.carryAmid`). None of that reaches the estate, and no request heeds
what the bus answers:

    (p.liveAmid deeds amid).1 = p.estate.dealings p.settings.maxInstances deeds
    (p.liveAmid deeds amid).2.estate = (p.estate.live p.settings.maxInstances deeds).1
                                                                        (Plane.liveAmid_eq)

So control planes that differ in their observers only give the same replies and keep the same stores
and providers (`observers_have_no_influence`). -/

namespace Fleet

open Service Procedure

/-- What an observer may do to a control plane. -/
inductive Meddling where
  /-- Uses the bus: subscribes, unsubscribes, publishes, closes it. -/
  | act (a : Bus.Action Receiver)
  | shutdown

/-- What observers do before the next call, before the one after it, and so on; nothing in the end. -/
abbrev Schedule := List (List Meddling)

namespace Plane

/-- What a meddling makes of a control plane. -/
def meddle (p : Plane) : Meddling → Plane
  | .act a =>
    let (bus, seen, _) := p.bus.act a
    { p with bus, plugins := (attend p.plugins seen).1 }
  | .shutdown => p.shutdown.1

/-- Carries a procedure out while observers meddle before its calls. What they have still to do comes
with the result. -/
def carryAmid {α : Type} : Procedure α → Schedule → Plane → Except Failure α × Schedule × Plane
  | .done a, amid, p => (.ok a, amid, p)
  | .fail f, amid, p => (.error f, amid, p)
  | .call c next, amid, p =>
    let (answer, p, _) := ((amid.headD []).foldl meddle p).serve c
    carryAmid (next answer) amid.tail p

/-- Deeds one after the other while observers meddle: each request with its reply, and the control
plane in the end. -/
def liveAmid (p : Plane) : List Deed → Schedule → List (Deed × Except Failure Reply) × Plane
  | [], _ => ([], p)
  | .request caller stamp q :: rest, amid =>
    let (reply, amid, p) := carryAmid (procedure p.settings.maxInstances caller stamp q) amid p
    let (later, p) := liveAmid p rest amid
    ((.request caller stamp q, reply) :: later, p)
  | .weather d :: rest, amid => liveAmid (p.act (.weather d)).1 rest amid

end Plane

/-- Deeds one after the other: each request with its reply. -/
def Estate.dealings (limit : UInt64) (w : Estate) : List Deed → List (Deed × Except Failure Reply)
  | [] => []
  | .request caller stamp q :: rest =>
    (.request caller stamp q, ((procedure limit caller stamp q).carry w).reply) ::
      Estate.dealings limit (w.act limit (.request caller stamp q)).1 rest
  | .weather d :: rest => Estate.dealings limit (w.act limit (.weather d)).1 rest

namespace Plane

variable {p : Plane}

/-! ## Observers leave the estate alone -/

theorem estate_meddle (p : Plane) (m : Meddling) :
    (p.meddle m).estate = p.estate ∧ (p.meddle m).settings = p.settings := by
  cases m with
  | act a => exact ⟨rfl, rfl⟩
  | shutdown => exact ⟨rfl, rfl⟩

theorem estate_foldl_meddle (p : Plane) (ms : List Meddling) :
    (ms.foldl meddle p).estate = p.estate ∧ (ms.foldl meddle p).settings = p.settings := by
  induction ms generalizing p with
  | nil => exact ⟨rfl, rfl⟩
  | cons m rest ih =>
    have hm := p.estate_meddle m
    have hrest := ih (p.meddle m)
    exact ⟨hrest.1.trans hm.1, hrest.2.trans hm.2⟩

theorem settings_serve (p : Plane) (c : Call) : (p.serve c).2.1.settings = p.settings := by
  by_cases hc : ∃ e, c = .publish e
  · obtain ⟨e, rfl⟩ := hc
    rfl
  · rw [p.serve_eq fun e he => hc ⟨e, he⟩]
    rfl

theorem estate_serve (p : Plane) (c : Call) : (p.serve c).2.1.estate = (p.estate.serve c).2 := by
  by_cases hc : ∃ e, c = .publish e
  · obtain ⟨e, rfl⟩ := hc
    rfl
  · rw [p.serve_eq fun e he => hc ⟨e, he⟩]
    rfl

/-- A procedure that heeds no answer of the bus goes on as it does over the estate. -/
theorem next_serve {α : Type} {c : Call} {next : c.Answer → Procedure α}
    (h : (Procedure.call c next).Heedless) (p : Plane) :
    next (p.serve c).1 = next (p.estate.serve c).1 := by
  by_cases hc : ∃ e, c = .publish e
  · obtain ⟨e, rfl⟩ := hc
    exact h.1 e rfl _ _
  · rw [p.serve_eq fun e he => hc ⟨e, he⟩]

/-- Whatever observers do meanwhile, a procedure that heeds no answer of the bus is carried out as its
estate does it. -/
theorem carryAmid_eq {α : Type} {pr : Procedure α} (h : pr.Heedless) (amid : Schedule) (p : Plane) :
    (carryAmid pr amid p).1 = (pr.carry p.estate).reply ∧
      (carryAmid pr amid p).2.2.estate = (pr.carry p.estate).estate ∧
      (carryAmid pr amid p).2.2.settings = p.settings := by
  induction pr generalizing amid p with
  | done a => exact ⟨rfl, rfl, rfl⟩
  | fail f => exact ⟨rfl, rfl, rfl⟩
  | call c next ih =>
    obtain ⟨hestate, hsettings⟩ := p.estate_foldl_meddle (amid.headD [])
    have hnext := next_serve h ((amid.headD []).foldl meddle p)
    have hafter := estate_serve ((amid.headD []).foldl meddle p) c
    have hkept := settings_serve ((amid.headD []).foldl meddle p) c
    rw [hestate] at hnext hafter
    rw [hsettings] at hkept
    -- The rest is carried out by what the call leaves, whose estate is the one that the call leaves.
    have hrest := ih (p.estate.serve c).1 (h.2 _) amid.tail
      (((amid.headD []).foldl meddle p).serve c).2.1
    rw [hafter, hkept] at hrest
    simp only [carryAmid, hnext, Procedure.carry, Upshot.after]
    exact hrest

/-- What observers do makes no difference to what the estate does. -/
theorem liveAmid_eq (p : Plane) (deeds : List Deed) (amid : Schedule) :
    (p.liveAmid deeds amid).1 = p.estate.dealings p.settings.maxInstances deeds ∧
      (p.liveAmid deeds amid).2.estate = (p.estate.live p.settings.maxInstances deeds).1 := by
  induction deeds generalizing p amid with
  | nil => exact ⟨rfl, rfl⟩
  | cons d rest ih =>
    cases d with
    | request caller stamp q =>
      have hheedless := procedure_heedless p.settings.maxInstances caller stamp q
      obtain ⟨hreply, hestate, hsettings⟩ := carryAmid_eq hheedless amid p
      have hrest := ih
        (carryAmid (procedure p.settings.maxInstances caller stamp q) amid p).2.2
        (carryAmid (procedure p.settings.maxInstances caller stamp q) amid p).2.1
      rw [hestate, hsettings] at hrest
      refine ⟨?_, hrest.2⟩
      simp only [liveAmid, Estate.dealings, hreply]
      exact congrArg _ hrest.1
    | weather d =>
      have hestate : (p.act (.weather d)).1.estate =
          (p.estate.act p.settings.maxInstances (.weather d)).1 := by
        cases d <;> rfl
      have hsettings : (p.act (.weather d)).1.settings = p.settings := by
        cases d <;> rfl
      have hrest := ih (p.act (.weather d)).1 amid
      rw [hestate, hsettings] at hrest
      exact hrest

/-! ## Observers change nothing -/

/-- Where nobody meddles, a procedure is carried out as ever. -/
theorem carryAmid_nil {α : Type} (pr : Procedure α) (p : Plane) :
    carryAmid pr [] p = ((p.carry pr).1, [], (p.carry pr).2.1) := by
  induction pr generalizing p with
  | done a => rfl
  | fail f => rfl
  | call c next ih => exact ih (p.serve c).1 (p.serve c).2.1

/-- Where nobody meddles, a request is answered as it is performed. -/
theorem liveAmid_perform (p : Plane) (caller : Option Caller) (stamp : Stamp) (q : Request) :
    p.liveAmid [.request caller stamp q] [] =
      ([(.request caller stamp q, (p.perform caller stamp q).1)], (p.perform caller stamp q).2) := by
  rw [perform_eq]
  simp only [liveAmid, carryAmid_nil]

/-- What a control plane begins with depends on its providers and on the name of the default one. -/
theorem estate_build {s s' : Settings} (h : s.defaultProvider = s'.defaultProvider)
    (providers : List (String × Provider.Local)) (recorder recorder' : Audit.Recorder)
    (extra extra' : List Plugin) :
    (build s providers recorder extra).estate = (build s' providers recorder' extra').estate := by
  unfold build estate
  rw [h]

/-- Two control planes with the same providers, the same default provider and the same limit, whatever
their plugins, audit trail, metrics and subscribers are and whatever these do to the bus at any moment:
every request has the same reply on both, and their stores and providers stay equal, with the calls
that the providers noted. -/
theorem observers_have_no_influence {s s' : Settings}
    (hdefault : s.defaultProvider = s'.defaultProvider) (hlimit : s.maxInstances = s'.maxInstances)
    (providers : List (String × Provider.Local)) (recorder recorder' : Audit.Recorder)
    (extra extra' : List Plugin) (deeds : List Deed) (amid amid' : Schedule) :
    let one := (build s providers recorder extra).liveAmid deeds amid
    let other := (build s' providers recorder' extra').liveAmid deeds amid'
    one.1 = other.1 ∧ one.2.store = other.2.store ∧ one.2.directory = other.2.directory := by
  intro one other
  have hone := (build s providers recorder extra).liveAmid_eq deeds amid
  have hother := (build s' providers recorder' extra').liveAmid_eq deeds amid'
  have hbegin := estate_build hdefault providers recorder recorder' extra extra'
  have hbound : (build s providers recorder extra).settings.maxInstances =
      (build s' providers recorder' extra').settings.maxInstances := hlimit
  rw [hbegin, hbound] at hone
  have hestate : one.2.estate = other.2.estate := hone.2.trans hother.2.symm
  exact ⟨hone.1.trans hother.1.symm, congrArg Estate.store hestate, congrArg Estate.directory hestate⟩

/-- A subscriber that fails comes first, then the bus is closed, and then all is shut down. -/
def unruly : Schedule :=
  [[.act (.subscribe (.plain (.outside "tap") [] (some "refused")))], [], [.act .close], [.shutdown]]

/-- A plugin that takes too long over new instances. -/
def sluggish : Plugin := .custom "sluggish" [.on .instanceCreated] fun _ _ => { delayMs := some 60000 }

/-- One instance is created and started, and its slug is asked for again. -/
def repeated : List Deed :=
  [deed "inst_1" "evt_1" (.create { name := "Web", image := "nginx" }),
    deed "inst_2" "evt_2" (.start "inst_1"),
    deed "inst_3" "evt_3" (.create { name := "web", image := "redis" })]

/-- Settings under which there are neither metrics nor an audit trail, and hooks have little time. -/
def hurried : Settings := { auditEnabled := false, metricsEnabled := false, hookTimeoutMs := 1 }

/-- A control plane with no plugins but its own. -/
def quiet : Plane := build {} [("local", { name := "local" })] {} []

/-- The same providers under other settings, an audit trail that cannot be written, and one more plugin. -/
def crowded : Plane :=
  build hurried [("local", { name := "local" })] { refuses := fun _ => true } [sluggish]

theorem observers_have_no_influence_unruly :
    (quiet.liveAmid repeated []).1 = (crowded.liveAmid repeated unruly).1 ∧
      (quiet.liveAmid repeated []).2.store = (crowded.liveAmid repeated unruly).2.store ∧
      (quiet.liveAmid repeated []).2.directory = (crowded.liveAmid repeated unruly).2.directory ∧
      (quiet.liveAmid repeated []).1.map (fun d => d.2.toOption.isSome) = [true, true, false] := by
  obtain ⟨hreplies, hstore, hdirectory⟩ := @observers_have_no_influence {} hurried rfl rfl
    [("local", { name := "local" })] {} { refuses := fun _ => true } [] [sluggish] repeated [] unruly
  refine ⟨hreplies, hstore, hdirectory, ?_⟩
  rw [(quiet.liveAmid_eq repeated []).1]
  decide +kernel

end Plane

end Fleet
