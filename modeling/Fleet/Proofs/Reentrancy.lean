import Fleet.Proofs.Chronicle

/-!
# Deliveries within deliveries

A handler may use the bus while it is being delivered to, and may publish. What happens during one
publication is a tree: its deliveries in order, for each delivery what the handler does, and within that
the publications it makes. The machine of levels goes through that tree and shows what is seen in it:

    b.publish e = (p.finish, p.seen, p.result)                                       (run_publication)

Every publication in the tree, whatever is done on the bus meanwhile, delivers to the subscriptions that
wanted its event when it began, in the order of the table, and results in its first failure
(`publications_are_exact`).

`Publication.Happens` only says that each reaction, each answer and each bus comes from the one before.
To whom an event is delivered and what comes of it is not part of it; that is `Publication.Exact`.
-/

namespace Fleet.Bus

variable {τ : Type}

/-! ## The tree of a publication -/

mutual

/-- A publication: the bus it begins on, its event, its deliveries, the bus it leaves, its result. -/
inductive Publication (τ : Type) where
  | mk (start : Bus τ) (event : Event) (deliveries : List (Delivery τ)) (finish : Bus τ)
      (result : Except BusError Unit)

/-- An event reaching a subscription: what the handler does, and how it fails, if it does. -/
inductive Delivery (τ : Type) where
  | mk (receiver : Subscription τ) (doings : List (Doing τ)) (failure : Option BusError)

/-- What a handler does on the bus: an action with its answer, or a publication. -/
inductive Doing (τ : Type) where
  | acted (action : Action τ) (answer : Answer)
  | published (p : Publication τ)

end

namespace Publication

def start : Publication τ → Bus τ
  | .mk start _ _ _ _ => start

def event : Publication τ → Event
  | .mk _ event _ _ _ => event

def deliveries : Publication τ → List (Delivery τ)
  | .mk _ _ deliveries _ _ => deliveries

def finish : Publication τ → Bus τ
  | .mk _ _ _ finish _ => finish

def result : Publication τ → Except BusError Unit
  | .mk _ _ _ _ result => result

end Publication

def Delivery.receiver : Delivery τ → Subscription τ
  | .mk receiver _ _ => receiver

/-- How the handler failed, if it did. -/
def Delivery.failure : Delivery τ → Option BusError
  | .mk _ _ failure => failure

mutual

def Publication.seen : Publication τ → List (Occurrence τ)
  | .mk _ event deliveries _ _ => deliveriesSeen event deliveries

def deliveriesSeen (e : Event) : List (Delivery τ) → List (Occurrence τ)
  | [] => []
  | .mk receiver doings _ :: rest =>
    .delivered receiver.tag e :: (doingsSeen receiver.tag doings ++ deliveriesSeen e rest)

def doingsSeen (source : τ) : List (Doing τ) → List (Occurrence τ)
  | [] => []
  | .acted action answer :: rest => .acted source action answer :: doingsSeen source rest
  | .published p :: rest =>
    p.seen ++ .acted source (.publish p.event) (.published p.result) :: doingsSeen source rest

end

mutual

/-- A publication and all those made during it. -/
def Publication.all : Publication τ → List (Publication τ)
  | .mk start event deliveries finish result =>
    .mk start event deliveries finish result :: deliveriesAll deliveries

/-- All publications made during some deliveries. -/
def deliveriesAll : List (Delivery τ) → List (Publication τ)
  | [] => []
  | .mk _ doings _ :: rest => doingsAll doings ++ deliveriesAll rest

/-- All publications among a handler's doings. -/
def doingsAll : List (Doing τ) → List (Publication τ)
  | [] => []
  | .acted _ _ :: rest => doingsAll rest
  | .published p :: rest => p.all ++ doingsAll rest

end

/-- Whether an action is a publication. -/
def Action.Publishes : Action τ → Prop
  | .publish _ => True
  | _ => False

mutual

/-- Whether the deliveries of a publication lead from the bus it begins on to the bus it leaves. -/
def Publication.Happens : Publication τ → Prop
  | .mk start _ deliveries finish _ => Delivers start deliveries finish

/-- Whether deliveries one after the other, each with the reaction its handler then has, lead from one
bus to another. -/
def Delivers (b : Bus τ) : List (Delivery τ) → Bus τ → Prop
  | [], after => after = b
  | .mk receiver doings failure :: rest, after => ∃ actions between,
      (b.react receiver).1 = .mk actions failure ∧ Does (b.react receiver).2 actions doings between ∧
        Delivers between rest after

/-- Whether doing the actions one after the other leads from one bus to another. -/
def Does (b : Bus τ) (actions : List (Action τ)) : List (Doing τ) → Bus τ → Prop
  | [], after => actions = [] ∧ after = b
  | .acted action answer :: rest, after => ∃ later, actions = action :: later ∧
      ¬ action.Publishes ∧ (b.perform action).1 = answer ∧ Does (b.perform action).2 later rest after
  | .published p :: rest, after => ∃ later, actions = .publish p.event :: later ∧
      p.start = b ∧ p.Happens ∧ Does p.finish later rest after

end

/-- What a publication promises by itself. On an open bus it reaches the subscriptions that wanted its
event when it began, each once and in the order of the table, and results in the first failure among
them. On a closed bus it is refused. -/
structure Publication.Exact (p : Publication τ) : Prop where
  audience : p.start.closed = false →
    p.deliveries.map Delivery.receiver = p.start.table.filter (·.wants p.event.kind)
  result : p.start.closed = false →
    p.result = (p.deliveries.findSome? Delivery.failure).elim (.ok ()) .error
  refused : p.start.closed = true →
    p.deliveries = [] ∧ p.finish = p.start ∧ p.result = .error .closed

/-! ## The machine goes through the tree -/

/-- A level while the handler of a subscription is at work. -/
def Level.serving (l : Level τ) (s : Subscription τ) (actions : List (Action τ))
    (failure : Option BusError) : Level τ := { l with reacting := some ⟨s, actions, failure⟩ }

section Steps

variable (e : Event) (first : Option BusError) (top : Level τ) (s : Subscription τ)
  (later : List (Action τ)) (failure : Option BusError) (below : List (Level τ))

theorem step_reached {b between : Bus τ} {actions : List (Action τ)}
    (h : b.react s = (.mk actions failure, between)) (remaining : List (Subscription τ)) :
    step b { event := e, remaining := s :: remaining, first } below =
      .more between (Level.serving { event := e, remaining, first } s actions failure :: below)
        [.delivered s.tag e] := by
  simp only [step, h]
  rfl

theorem step_left (b : Bus τ) (remaining : List (Subscription τ)) :
    step b (Level.serving { event := e, remaining, first } s [] failure) below =
      .more b ({ event := e, remaining, first := first <|> failure } :: below) [] := rfl

theorem step_action {a : Action τ} (h : ¬ a.Publishes) (b : Bus τ) :
    step b (top.serving s (a :: later) failure) below =
      .more (b.perform a).2 (top.serving s later failure :: below)
        [.acted s.tag a (b.perform a).1] := by
  cases a with
  | publish e => exact absurd trivial h
  | _ => rfl

theorem step_refused {b : Bus τ} (h : b.closed = true) :
    step b (top.serving s (.publish e :: later) failure) below =
      .more b (top.serving s later failure :: below)
        [.acted s.tag (.publish e) (.published (.error .closed))] := by
  simp only [step, Level.serving, audience, h, if_true]

theorem step_opened {b : Bus τ} (h : b.closed = false) :
    step b (top.serving s (.publish e :: later) failure) below =
      .more b ({ event := e, remaining := b.table.filter (·.wants e.kind) } ::
        top.serving s later failure :: below) [] := by
  simp only [step, Level.serving, audience, h, Bool.false_eq_true, if_false]

theorem step_closing (b : Bus τ) :
    step b { event := e, remaining := [], first } (top.serving s later failure :: below) =
      .more b (top.serving s later failure :: below)
        [.acted s.tag (.publish e) (.published (first.elim (.ok ()) .error))] := by
  cases first <;> rfl

theorem step_over (b : Bus τ) :
    step b { event := e, remaining := [], first } [] = .over b (first.elim (.ok ()) .error) := by
  cases first <;> rfl

end Steps

mutual

/-- Inside a reaction, the machine goes through a publication and comes back with its result. -/
theorem run_nested (p : Publication τ) (hp : p.Happens) (hall : ∀ n ∈ p.all, n.Exact)
    (top : Level τ) (s : Subscription τ) (later : List (Action τ)) (failure : Option BusError)
    (below : List (Level τ)) :
    run p.start (top.serving s (.publish p.event :: later) failure :: below) =
      preceded (p.seen ++ [.acted s.tag (.publish p.event) (.published p.result)])
        (run p.finish (top.serving s later failure :: below)) := by
  obtain ⟨b, e, deliveries, after, result⟩ := p
  have hexact : (Publication.mk b e deliveries after result).Exact := hall _ (.head _)
  cases hclosed : b.closed with
  | true =>
    obtain ⟨rfl, rfl, rfl⟩ : deliveries = [] ∧ after = b ∧ result = .error .closed :=
      hexact.refused hclosed
    exact run_more (step_refused e top s later failure below hclosed)
  | false =>
    have haudience : deliveries.map Delivery.receiver = b.table.filter (·.wants e.kind) :=
      hexact.audience hclosed
    obtain rfl : result = (deliveries.findSome? Delivery.failure).elim (.ok ()) .error :=
      hexact.result hclosed
    have hrun := run_deliveries deliveries hp (fun n hn => hall n (.tail _ hn)) e none
      (top.serving s later failure :: below)
    -- The level that is opened, all its deliveries, and its end.
    simp only [Publication.start, Publication.event, Publication.finish, Publication.result,
      Publication.seen]
    rw [run_more (step_opened e top s later failure below hclosed), preceded_nil, ← haudience, hrun,
      run_more (step_closing ..), preceded_preceded]
    rfl

/-- The machine goes through deliveries, and keeps the first failure. -/
theorem run_deliveries (deliveries : List (Delivery τ)) {b after : Bus τ}
    (hd : Delivers b deliveries after) (hall : ∀ n ∈ deliveriesAll deliveries, n.Exact) (e : Event)
    (first : Option BusError) (below : List (Level τ)) :
    run b ({ event := e, remaining := deliveries.map Delivery.receiver, first } :: below) =
      preceded (deliveriesSeen e deliveries)
        (run after
          ({ event := e, remaining := [], first := first <|> deliveries.findSome? Delivery.failure } ::
            below)) := by
  match deliveries with
  | [] =>
    obtain rfl : after = b := hd
    cases first <;> rfl
  | .mk receiver doings failure :: rest =>
    obtain ⟨actions, between, hreact, hdo, hrest⟩ := hd
    have hreacts : b.react receiver = (.mk actions failure, (b.react receiver).2) := Prod.ext hreact rfl
    have hfirst : (first <|> failure <|> rest.findSome? Delivery.failure) =
        ((first <|> failure) <|> rest.findSome? Delivery.failure) := by
      cases first <;> rfl
    have hsome : (Delivery.mk receiver doings failure :: rest).findSome? Delivery.failure =
        (failure <|> rest.findSome? Delivery.failure) := by
      cases failure <;> rfl
    rw [List.map_cons, Delivery.receiver, run_more (step_reached e first receiver failure below hreacts _),
      run_doings doings hdo (fun n hn => hall n (List.mem_append_left _ hn)),
      run_more (step_left ..), preceded_nil,
      run_deliveries rest hrest (fun n hn => hall n (List.mem_append_right _ hn)), hsome, hfirst,
      preceded_preceded, preceded_preceded]
    rfl

/-- The machine goes through what a handler does. -/
theorem run_doings (doings : List (Doing τ)) {b after : Bus τ} {actions : List (Action τ)}
    (hd : Does b actions doings after) (hall : ∀ n ∈ doingsAll doings, n.Exact) (top : Level τ)
    (s : Subscription τ) (failure : Option BusError) (below : List (Level τ)) :
    run b (top.serving s actions failure :: below) =
      preceded (doingsSeen s.tag doings) (run after (top.serving s [] failure :: below)) := by
  match doings with
  | [] =>
    obtain ⟨rfl, rfl⟩ := hd
    rfl
  | .acted action answer :: rest =>
    obtain ⟨later, rfl, hplain, rfl, hrest⟩ := hd
    rw [run_more (step_action top s later failure below hplain b), run_doings rest hrest hall,
      preceded_preceded]
    rfl
  | .published p :: rest =>
    obtain ⟨later, rfl, rfl, hp, hrest⟩ := hd
    rw [run_nested p hp (fun n hn => hall n (List.mem_append_left _ hn)),
      run_doings rest hrest (fun n hn => hall n (List.mem_append_right _ hn)), preceded_preceded]
    simp only [doingsSeen, List.append_assoc, List.singleton_append]

end

theorem publish_of_closed {b : Bus τ} (h : b.closed = true) (e : Event) :
    b.publish e = (b, [], .error .closed) := by
  simp only [publish, audience, h, if_true]

theorem publish_of_open {b : Bus τ} (h : b.closed = false) (e : Event) :
    b.publish e = run b [{ event := e, remaining := b.table.filter (·.wants e.kind) }] := by
  simp only [publish, audience, h, Bool.false_eq_true, if_false]

/-- From outside, what publishing comes to is what the tree says. -/
theorem run_publication (p : Publication τ) (hp : p.Happens) (hall : ∀ n ∈ p.all, n.Exact) :
    p.start.publish p.event = (p.finish, p.seen, p.result) := by
  obtain ⟨b, e, deliveries, after, result⟩ := p
  have hexact : (Publication.mk b e deliveries after result).Exact := hall _ (.head _)
  cases hclosed : b.closed with
  | true =>
    obtain ⟨rfl, rfl, rfl⟩ : deliveries = [] ∧ after = b ∧ result = .error .closed :=
      hexact.refused hclosed
    exact publish_of_closed hclosed e
  | false =>
    have haudience : deliveries.map Delivery.receiver = b.table.filter (·.wants e.kind) :=
      hexact.audience hclosed
    obtain rfl : result = (deliveries.findSome? Delivery.failure).elim (.ok ()) .error :=
      hexact.result hclosed
    have hrun := run_deliveries deliveries hp (fun n hn => hall n (.tail _ hn)) e none []
    rw [haudience, run_over (step_over ..)] at hrun
    refine (publish_of_open hclosed e).trans (hrun.trans ?_)
    simp only [preceded, List.append_nil]
    rfl

/-! ## Every publication comes to an end -/

/-- Whether whatever reaction on whatever bus has a course, as long as no more than `n` actions are
planned. The course leaves no more planned than there was. -/
def ReactionsEnd (τ : Type) (n : Nat) : Prop :=
  ∀ (b : Bus τ) (actions : List (Action τ)), plansWeight b.plans + actionsWeight actions ≤ n →
    ∃ doings after, Does b actions doings after ∧ (∀ p ∈ doingsAll doings, p.Exact) ∧
      plansWeight after.plans ≤ plansWeight b.plans + actionsWeight actions

theorem exists_deliveries {n : Nat} (hn : ReactionsEnd τ n) (audience : List (Subscription τ)) :
    ∀ b : Bus τ, plansWeight b.plans ≤ n → ∃ deliveries after,
      deliveries.map Delivery.receiver = audience ∧ Delivers b deliveries after ∧
        (∀ p ∈ deliveriesAll deliveries, p.Exact) ∧ plansWeight after.plans ≤ plansWeight b.plans := by
  induction audience with
  | nil =>
    intro b _
    refine ⟨[], b, rfl, rfl, ?_, Nat.le_refl _⟩
    intro p hp
    cases hp
  | cons s rest ih =>
    intro b hb
    -- The reaction's actions are taken out of the plans.
    have hweight := plansWeight_react b s
    generalize hreact : b.react s = reacted at hweight
    obtain ⟨⟨actions, failure⟩, between⟩ := reacted
    simp only [Reaction.weight] at hweight
    obtain ⟨doings, next, hdo, hdone, hnext⟩ := hn between actions (by omega)
    obtain ⟨deliveries, after, hreceivers, hdeliver, hall, hafter⟩ := ih next (by omega)
    refine ⟨.mk s doings failure :: deliveries, after, ?_, ?_, ?_, by omega⟩
    · rw [List.map_cons, hreceivers]
      rfl
    · exact ⟨actions, next, by rw [hreact], by rw [hreact]; exact hdo, hdeliver⟩
    · intro p hp
      rcases List.mem_append.1 hp with hp | hp
      · exact hdone p hp
      · exact hall p hp

theorem Publication.exact_refused {b : Bus τ} (h : b.closed = true) (e : Event) :
    (Publication.mk b e [] b (.error .closed)).Exact := by
  constructor
  case refused => exact fun _ => ⟨rfl, rfl, rfl⟩
  all_goals
    intro hopen
    exact absurd (hopen.symm.trans h) Bool.false_ne_true

theorem Publication.exact_delivered {b after : Bus τ} (h : b.closed = false) {e : Event}
    {deliveries : List (Delivery τ)}
    (hreceivers : deliveries.map Delivery.receiver = b.table.filter (·.wants e.kind)) :
    (Publication.mk b e deliveries after
      ((deliveries.findSome? Delivery.failure).elim (.ok ()) .error)).Exact where
  audience _ := hreceivers
  result _ := rfl
  refused hshut := absurd (h.symm.trans hshut) Bool.false_ne_true

theorem exists_publication {n : Nat} (hn : ReactionsEnd τ n) (b : Bus τ) (e : Event)
    (hb : plansWeight b.plans ≤ n) : ∃ p : Publication τ, p.start = b ∧ p.event = e ∧ p.Happens ∧
      (∀ q ∈ p.all, q.Exact) ∧ plansWeight p.finish.plans ≤ plansWeight b.plans := by
  cases hclosed : b.closed with
  | true =>
    refine ⟨.mk b e [] b (.error .closed), rfl, rfl, rfl, ?_, Nat.le_refl _⟩
    intro q hq
    obtain rfl := List.mem_singleton.1 hq
    exact Publication.exact_refused hclosed e
  | false =>
    obtain ⟨deliveries, after, hreceivers, hdeliver, hall, hafter⟩ :=
      exists_deliveries hn (b.table.filter (·.wants e.kind)) b hb
    refine ⟨.mk b e deliveries after ((deliveries.findSome? Delivery.failure).elim (.ok ()) .error),
      rfl, rfl, hdeliver, ?_, hafter⟩
    intro q hq
    rcases List.mem_cons.1 hq with rfl | hq
    · exact Publication.exact_delivered hclosed hreceivers
    · exact hall q hq

theorem Action.weight_pos (a : Action τ) : 0 < a.weight := by
  cases a with
  | subscribe s => exact Nat.lt_add_right _ Nat.zero_lt_one
  | _ => exact Nat.zero_lt_one

/-- Every action takes one away from what is planned, whatever the publications in it lead to. -/
theorem reactionsEnd (n : Nat) : ReactionsEnd τ n := by
  have hidle : ∀ b : Bus τ, ∃ doings after, Does b [] doings after ∧
      (∀ p ∈ doingsAll doings, p.Exact) ∧
      plansWeight after.plans ≤ plansWeight b.plans + actionsWeight ([] : List (Action τ)) := by
    intro b
    refine ⟨[], b, ⟨rfl, rfl⟩, ?_, Nat.le_refl _⟩
    intro p hp
    cases hp
  induction n with
  | zero =>
    intro b actions h
    cases actions with
    | nil => exact hidle b
    | cons a later =>
      have hpos := a.weight_pos
      simp only [actionsWeight] at h
      omega
  | succ n ih =>
    intro b actions h
    cases actions with
    | nil => exact hidle b
    | cons a later =>
      simp only [actionsWeight] at h ⊢
      by_cases hpublish : ∃ e, a = .publish e
      · obtain ⟨e, rfl⟩ := hpublish
        simp only [Action.weight] at h ⊢
        obtain ⟨p, rfl, rfl, hp, hall, hfinish⟩ := exists_publication ih b e (by omega)
        obtain ⟨doings, after, hdo, hdone, hafter⟩ := ih p.finish later (by omega)
        refine ⟨.published p :: doings, after, ⟨later, rfl, rfl, hp, hdo⟩, ?_, by omega⟩
        intro q hq
        rcases List.mem_append.1 hq with hq | hq
        · exact hall q hq
        · exact hdone q hq
      · have hplain : ¬ a.Publishes := by
          intro h
          cases a with
          | publish e => exact hpublish ⟨e, rfl⟩
          | _ => exact h
        have hweight := plansWeight_perform_lt b a
        obtain ⟨doings, after, hdo, hdone, hafter⟩ := ih (b.perform a).2 later (by omega)
        exact ⟨.acted a (b.perform a).1 :: doings, after, ⟨later, rfl, hplain, rfl, hdo⟩, hdone,
          by omega⟩

/-- Publishing on any bus, with whatever its handlers do meanwhile, is a tree of publications. Each of
them, outermost or nested, goes to the subscriptions that wanted its event when it began, to each once
and in their order, and has the first failure among them as its result; on a closed bus it is
refused. -/
theorem publications_are_exact (b : Bus τ) (e : Event) :
    ∃ p : Publication τ, p.start = b ∧ p.event = e ∧ p.Happens ∧
      b.publish e = (p.finish, p.seen, p.result) ∧ ∀ q ∈ p.all, q.Exact := by
  obtain ⟨p, rfl, rfl, hp, hall, -⟩ := exists_publication (reactionsEnd _) b e (Nat.le_refl _)
  exact ⟨p, rfl, rfl, hp, run_publication p hp hall, hall⟩

end Fleet.Bus
