import Fleet.Proofs.Upshot

/-!
# The chronicle of a control plane

No deed depends on the bus, so the estate of a control plane lives by itself (`Estate.live`), and what
is published meanwhile is its chronicle. The control plane lives as its estate does and tells the
chronicle:

    p.live deeds = (p with (w.live limit deeds).1).tell (w.live limit deeds).2      (Plane.live_eq)

A subscriber for all kinds of event, on an open bus where no handler acts, hears the chronicle event for
event (`heard_live`). -/

namespace Fleet

open Service

/-! ## A bus on which nobody acts -/

namespace Bus

variable {τ : Type} {b : Bus τ}

/-- Whether no subscribed handler has an action left to take. -/
def Idle (b : Bus τ) : Prop := ∀ s ∈ b.table, takeFrom s.id b.plans = (none, b.plans)

theorem react_of_idle (h : b.Idle) {s : Subscription τ} (hs : s ∈ b.table) :
    b.react s = (.mk [] s.settled, b) := by
  unfold react
  rw [h s hs]
  rfl

/-- What a run comes to, with something seen before it. -/
def preceded {α : Type} (seen : List (Occurrence τ)) (r : Bus τ × List (Occurrence τ) × α) :
    Bus τ × List (Occurrence τ) × α := (r.1, seen ++ r.2.1, r.2.2)

theorem preceded_nil {α : Type} (r : Bus τ × List (Occurrence τ) × α) : preceded [] r = r := rfl

theorem preceded_preceded {α : Type} (earlier seen : List (Occurrence τ))
    (r : Bus τ × List (Occurrence τ) × α) :
    preceded earlier (preceded seen r) = preceded (earlier ++ seen) r := by
  simp only [preceded, List.append_assoc]

theorem run_more {b' : Bus τ} {top : Level τ} {below levels : List (Level τ)}
    {seen : List (Occurrence τ)} (h : step b top below = .more b' levels seen) :
    run b (top :: below) = preceded seen (run b' levels) := by
  rw [run]
  split
  · rename_i hstep
    rw [h] at hstep
    cases hstep
  · rename_i hstep
    rw [h] at hstep
    cases hstep
    rfl

theorem run_over {b' : Bus τ} {top : Level τ} {below : List (Level τ)}
    {result : Except BusError Unit} (h : step b top below = .over b' result) :
    run b (top :: below) = (b', [], result) := by
  rw [run]
  split
  · rename_i hstep
    rw [h] at hstep
    cases hstep
    rfl
  · rename_i hstep
    rw [h] at hstep
    cases hstep

/-- A delivery reaches everyone it has still to reach, in order, and nothing else happens. -/
theorem run_of_idle (h : b.Idle) (e : Event) {remaining : List (Subscription τ)}
    (hr : ∀ s ∈ remaining, s ∈ b.table) (first : Option BusError) :
    ∃ result, run b [{ event := e, remaining, first }] =
      (b, remaining.map fun s => .delivered s.tag e, result) := by
  induction remaining generalizing first with
  | nil => exact ⟨_, run_over rfl⟩
  | cons s later ih =>
    obtain ⟨result, hlater⟩ := ih (fun s hs => hr s (.tail _ hs)) (first <|> s.settled)
    have hreached : step b { event := e, remaining := s :: later, first } [] =
        .more b [{ event := e, remaining := later, first, reacting := some ⟨s, [], s.settled⟩ }]
          [.delivered s.tag e] := by
      simp only [step, react_of_idle h (hr s (.head _))]
    -- Two steps for each handler: it is reached, and then it has nothing left to do.
    refine ⟨result, ?_⟩
    rw [run_more hreached, run_more rfl, hlater]
    rfl

/-- On an open bus where nobody acts, an event is delivered once to each subscription that wants it, in
the order of the table, and the bus stays as it is. -/
theorem publish_of_idle (h : b.Idle) (hopen : b.closed = false) (e : Event) :
    ∃ result, b.publish e =
      (b, (b.table.filter (·.wants e.kind)).map fun s => .delivered s.tag e, result) := by
  obtain ⟨result, hrun⟩ := run_of_idle h e (fun s hs => (List.mem_filter.1 hs).1) none
  refine ⟨result, ?_⟩
  unfold publish audience
  rw [hopen]
  exact hrun

/-- Whether one subscriber of the label hears all events: the bus is open, nobody acts on it, and the
label has one subscription, for all kinds. -/
structure Tapped (b : Bus Receiver) (label : String) : Prop where
  opened : b.closed = false
  idle : b.Idle
  once : ∃ s, b.table.filter (·.tag = .outside label) = [s] ∧ s.kinds = []

/-- A bus with one plain subscriber for all kinds, whatever its result. -/
theorem tapped_subscribe (label : String) (failure : Option String) :
    ((Bus.empty : Bus Receiver).subscribe (.plain (.outside label) [] failure)).2.Tapped label where
  opened := rfl
  idle := by
    intro s hs
    obtain rfl := List.mem_singleton.1 hs
    rfl
  once := by
    refine ⟨{ id := ⟨1⟩, tag := .outside label, kinds := [], settled := failure.map .handler }, ?_, rfl⟩
    simp [subscribe, Subscriber.plain, Bus.empty]

end Bus

/-! ## What a subscriber hears -/

/-- The event that the subscriber of a label is seen to receive. -/
def Notice.heardBy (label : String) : Notice → Option Event
  | .occurrence (.delivered (.outside l) e) => if l = label then some e else none
  | _ => none

/-- The events that the subscriber of a label receives, in order. -/
def heard (label : String) (notices : List Notice) : List Event :=
  notices.filterMap (Notice.heardBy label)

namespace Plane

variable {p : Plane} {label : String}

theorem heard_attend (label : String) (ps : Plugins) (subscriptions : List (Bus.Subscription Receiver))
    (e : Event) : heard label (attend ps (subscriptions.map fun s => .delivered s.tag e)).2 =
      (subscriptions.filter (·.tag = .outside label)).map fun _ => e := by
  unfold heard
  induction subscriptions generalizing ps with
  | nil => rfl
  | cons s rest ih =>
    cases htag : s.tag with
    | plugins =>
      -- Plugins are called by hooks, of which other subscribers hear nothing.
      have hhooks : ∀ calls : List HookCall,
          (calls.map Notice.hook).filterMap (Notice.heardBy label) = [] := by
        intro calls
        simp [List.filterMap_map, Function.comp_def, Notice.heardBy]
      simp only [List.map_cons, htag, attend, List.filterMap_append, hhooks, List.nil_append, ih]
      rw [List.filter_cons_of_neg (by simp [htag])]
    | outside l =>
      simp only [List.map_cons, htag, attend]
      by_cases hl : l = label
      · rw [List.filterMap_cons_some (b := e) (by simp [Notice.heardBy, hl]), ih,
          List.filter_cons_of_pos (by simp [htag, hl])]
        rfl
      · rw [List.filterMap_cons_none (by simp [Notice.heardBy, hl]), ih,
          List.filter_cons_of_neg (by simp [htag, hl])]

theorem heard_publish (h : p.bus.Tapped label) (e : Event) :
    (p.publish e).2.1.bus = p.bus ∧ heard label (p.publish e).2.2 = [e] := by
  obtain ⟨result, hpublish⟩ := Bus.publish_of_idle h.idle h.opened e
  obtain ⟨s, hs, hkinds⟩ := h.once
  have hwants : s.wants e.kind = true := by simp [Bus.Subscription.wants, hkinds]
  have hreached : (p.bus.table.filter (·.wants e.kind)).filter (·.tag = .outside label) = [s] := by
    have hcomm : (p.bus.table.filter (·.wants e.kind)).filter (·.tag = .outside label) =
        (p.bus.table.filter (·.tag = .outside label)).filter (·.wants e.kind) := by
      simp only [List.filter_filter, Bool.and_comm]
    rw [hcomm, hs]
    exact List.filter_cons_of_pos hwants
  unfold publish
  rw [hpublish]
  exact ⟨rfl, (heard_attend _ _ _ _).trans (by rw [hreached]; rfl)⟩

/-- A subscriber for all kinds hears what is told. -/
theorem heard_tell (h : p.bus.Tapped label) (es : List Event) :
    heard label (p.tell es).2 = es := by
  induction es generalizing p with
  | nil => rfl
  | cons e rest ih =>
    obtain ⟨hbus, hheard⟩ := heard_publish h e
    have hrest := ih (p := (p.publish e).2.1) (hbus ▸ h)
    unfold heard at hheard hrest ⊢
    simp only [tell, List.filterMap_append, hheard, hrest]
    rfl

end Plane

/-! ## The life of an estate -/

namespace Estate

/-- What a deed makes of an estate, with the events that are published. -/
def act (limit : UInt64) (w : Estate) : Deed → Estate × List Event
  | .request caller stamp q =>
    (((procedure limit caller stamp q).carry w).estate, ((procedure limit caller stamp q).carry w).events)
  | .weather d => ((w.plane.act (.weather d)).1.estate, [])

/-- Deeds one after the other, with the events that are published. -/
def live (limit : UInt64) (w : Estate) : List Deed → Estate × List Event
  | [] => (w, [])
  | d :: rest =>
    (((w.act limit d).1.live limit rest).1, (w.act limit d).2 ++ ((w.act limit d).1.live limit rest).2)

end Estate

namespace Plane

theorem tell_append (p : Plane) (es later : List Event) :
    p.tell (es ++ later) =
      (((p.tell es).1.tell later).1, (p.tell es).2 ++ ((p.tell es).1.tell later).2) := by
  induction es generalizing p with
  | nil => rfl
  | cons e rest ih =>
    simp only [List.cons_append, tell, ih, List.append_assoc]

/-- A deed does what it does to the estate, and tells of it. -/
theorem act_eq (p : Plane) (d : Deed) :
    p.act d = (p.occupy (p.estate.act p.settings.maxInstances d).1).tell
      (p.estate.act p.settings.maxInstances d).2 := by
  cases d with
  | request caller stamp q =>
    have hcarry := p.carry_eq (procedure_heedless p.settings.maxInstances caller stamp q)
    exact congrArg Prod.snd hcarry
  | weather d => cases d <;> rfl

/-- A control plane lives as its estate does, and tells the chronicle. -/
theorem live_eq (p : Plane) (deeds : List Deed) :
    p.live deeds = (p.occupy (p.estate.live p.settings.maxInstances deeds).1).tell
      (p.estate.live p.settings.maxInstances deeds).2 := by
  induction deeds generalizing p with
  | nil => rfl
  | cons d rest ih =>
    have hestate : (p.act d).1.estate = (p.estate.act p.settings.maxInstances d).1 := by
      rw [act_eq, estate_tell, estate_occupy]
    have hsettings : (p.act d).1.settings = p.settings := by
      rw [act_eq, settings_tell]
      rfl
    unfold live
    rw [ih, hestate, hsettings]
    simp only [act_eq, Estate.live, tell_append, tell_occupy, occupy_occupy]

theorem estate_live (p : Plane) (deeds : List Deed) :
    (p.live deeds).1.estate = (p.estate.live p.settings.maxInstances deeds).1 := by
  rw [live_eq, estate_tell, estate_occupy]

theorem settings_live (p : Plane) (deeds : List Deed) : (p.live deeds).1.settings = p.settings := by
  rw [live_eq, settings_tell]
  rfl

/-- A subscriber for all kinds hears the chronicle. -/
theorem heard_live {p : Plane} {label : String} (h : p.bus.Tapped label) (deeds : List Deed) :
    heard label (p.live deeds).2 = (p.estate.live p.settings.maxInstances deeds).2 := by
  rw [live_eq]
  exact heard_tell (p := p.occupy _) h _

end Plane

end Fleet
