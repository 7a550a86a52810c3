import Fleet.Proofs.Reentrancy

/-!
# The table of subscriptions over a whole use of the bus

A use of the bus is a sequence of actions from outside. Its doings are what comes of them, publications
as trees, so it is gone through as a reaction of a handler is:

    b.use actions = (after, doings.flatMap Doing.seen, doings.map Doing.answer)      (use_eq)

Its moments are all actions taken, from outside or by handlers, in the order in which they are taken and
each with the bus that it is taken on. Nothing changes the table between one moment and the next
(`follows_doings`), so what holds of the table is kept from moment to moment (`Keeps.moment`). Over any use
from the empty bus the table is in the order of its numbers, no number is given out twice, a subscription
is found exactly when it still stands, and a closed bus stays closed and empty
(`subscriptions_stay_in_order`).
-/

namespace Fleet.Bus

variable {τ : Type}

/-! ## Uses and their moments -/

/-- Takes actions from outside one after the other: the bus after them, what was seen meanwhile, and the
answers. -/
def use (b : Bus τ) : List (Action τ) → Bus τ × List (Occurrence τ) × List Answer
  | [] => (b, [], [])
  | a :: rest =>
    let (next, seen, answer) := b.act a
    let (after, later, answers) := use next rest
    (after, seen ++ later, answer :: answers)

namespace Doing

def action : Doing τ → Action τ
  | .acted action _ => action
  | .published p => .publish p.event

def answer : Doing τ → Answer
  | .acted _ answer => answer
  | .published p => .published p.result

/-- What is seen at other handlers while the action is taken. -/
def seen : Doing τ → List (Occurrence τ)
  | .acted _ _ => []
  | .published p => p.seen

end Doing

/-- An action being taken: the bus that it is taken on, and what comes of it. -/
structure Moment (τ : Type) where
  bus : Bus τ
  doing : Doing τ

namespace Moment

/-- The bus once the action has had its own effect. A publication by itself has none: what its handlers do
are moments of their own. -/
def next (m : Moment τ) : Bus τ :=
  match m.doing with
  | .acted action _ => (m.bus.perform action).2
  | .published _ => m.bus

/-- The number given out, if the action is a subscription that is not refused. -/
def issued? (m : Moment τ) : Option SubscriptionId :=
  match m.doing.answer with
  | .subscribed (.ok id) => some id
  | _ => none

/-- Whether what comes of the action is what the bus answers to it: a publication is the one of that event
on that bus, and an exact one. -/
def Answered (m : Moment τ) : Prop :=
  match m.doing with
  | .acted action answer => ¬ action.Publishes ∧ (m.bus.perform action).1 = answer
  | .published p => p.start = m.bus ∧ p.Exact

end Moment

/-- The bus that some doings leave. -/
def leave (b : Bus τ) : List (Doing τ) → Bus τ
  | [] => b
  | .acted action _ :: rest => leave (b.perform action).2 rest
  | .published p :: rest => leave p.finish rest

mutual

/-- The actions taken by handlers during a publication, in order. -/
def Publication.moments : Publication τ → List (Moment τ)
  | .mk start _ deliveries _ _ => deliveriesMoments start deliveries

/-- The actions taken during some deliveries. -/
def deliveriesMoments (b : Bus τ) : List (Delivery τ) → List (Moment τ)
  | [] => []
  | .mk receiver doings _ :: rest =>
    doingsMoments (b.react receiver).2 doings ++
      deliveriesMoments (leave (b.react receiver).2 doings) rest

/-- The actions of some doings, each before those that it sets off. -/
def doingsMoments (b : Bus τ) : List (Doing τ) → List (Moment τ)
  | [] => []
  | .acted action answer :: rest =>
    ⟨b, .acted action answer⟩ :: doingsMoments (b.perform action).2 rest
  | .published p :: rest => ⟨b, .published p⟩ :: (p.moments ++ doingsMoments p.finish rest)

end

/-- Whether two buses differ at most in what handlers have planned. -/
structure SameTable (b b' : Bus τ) : Prop where
  table : b.table = b'.table
  lastId : b.lastId = b'.lastId
  closed : b.closed = b'.closed

/-- Whether moments lead from one bus to another: each is taken on the bus that the one before left, but
for the plans of handlers, and has the answer of that bus. -/
def Follows (b : Bus τ) : List (Moment τ) → Bus τ → Prop
  | [], after => b.SameTable after
  | m :: rest, after => b.SameTable m.bus ∧ m.Answered ∧ Follows m.next rest after

theorem SameTable.refl (b : Bus τ) : b.SameTable b := ⟨rfl, rfl, rfl⟩

theorem SameTable.trans {a b c : Bus τ} (h : a.SameTable b) (h' : b.SameTable c) : a.SameTable c :=
  ⟨h.table.trans h'.table, h.lastId.trans h'.lastId, h.closed.trans h'.closed⟩

theorem sameTable_react (b : Bus τ) (s : Subscription τ) : b.SameTable (b.react s).2 := ⟨rfl, rfl, rfl⟩

theorem Follows.of_sameTable {a b after : Bus τ} {moments : List (Moment τ)} (h : a.SameTable b)
    (hm : b.Follows moments after) : a.Follows moments after := by
  cases moments with
  | nil => exact h.trans hm
  | cons m rest => exact ⟨h.trans hm.1, hm.2⟩

theorem Follows.append {b between after : Bus τ} {moments later : List (Moment τ)}
    (h : b.Follows moments between) (hl : between.Follows later after) :
    b.Follows (moments ++ later) after := by
  induction moments generalizing b with
  | nil => exact hl.of_sameTable h
  | cons m rest ih => exact ⟨h.1, h.2.1, ih h.2.2⟩

theorem leave_of_does {doings : List (Doing τ)} {b after : Bus τ} {actions : List (Action τ)}
    (h : Does b actions doings after) : leave b doings = after := by
  induction doings generalizing b actions with
  | nil => exact h.2.symm
  | cons d rest ih =>
    cases d with
    | acted action answer =>
      obtain ⟨later, -, -, -, hrest⟩ := h
      exact ih hrest
    | published p =>
      obtain ⟨later, -, -, -, hrest⟩ := h
      exact ih hrest

mutual

/-- The moments of a publication lead from the bus it begins on to the bus it leaves. -/
theorem follows_publication (p : Publication τ) (hp : p.Happens) (hall : ∀ q ∈ p.all, q.Exact) :
    p.start.Follows p.moments p.finish := by
  obtain ⟨b, e, deliveries, after, result⟩ := p
  exact follows_deliveries deliveries hp fun q hq => hall q (.tail _ hq)

/-- The moments of deliveries lead from one bus to the other: that a handler is reached changes no
table. -/
theorem follows_deliveries (deliveries : List (Delivery τ)) {b after : Bus τ}
    (hd : Delivers b deliveries after) (hall : ∀ q ∈ deliveriesAll deliveries, q.Exact) :
    b.Follows (deliveriesMoments b deliveries) after := by
  match deliveries with
  | [] =>
    obtain rfl : after = b := hd
    exact .refl _
  | .mk receiver doings failure :: rest =>
    obtain ⟨actions, between, -, hdo, hrest⟩ := hd
    have hfirst := follows_doings doings hdo fun q hq => hall q (List.mem_append_left _ hq)
    have hothers := follows_deliveries rest hrest fun q hq => hall q (List.mem_append_right _ hq)
    simp only [deliveriesMoments, leave_of_does hdo]
    exact (hfirst.append hothers).of_sameTable (sameTable_react b receiver)

/-- The moments of doings lead from one bus to the other. -/
theorem follows_doings (doings : List (Doing τ)) {b after : Bus τ} {actions : List (Action τ)}
    (hd : Does b actions doings after) (hall : ∀ q ∈ doingsAll doings, q.Exact) :
    b.Follows (doingsMoments b doings) after := by
  match doings with
  | [] =>
    obtain ⟨-, rfl⟩ := hd
    exact .refl _
  | .acted action answer :: rest =>
    obtain ⟨later, -, hplain, hanswer, hrest⟩ := hd
    exact ⟨.refl _, ⟨hplain, hanswer⟩, follows_doings rest hrest hall⟩
  | .published p :: rest =>
    obtain ⟨later, -, rfl, hp, hrest⟩ := hd
    have hexact : ∀ q ∈ p.all, q.Exact := fun q hq => hall q (List.mem_append_left _ hq)
    have hself : p.Exact := hexact p (by cases p; exact .head _)
    have hwithin := follows_publication p hp hexact
    have hothers := follows_doings rest hrest fun q hq => hall q (List.mem_append_right _ hq)
    exact ⟨.refl _, ⟨rfl, hself⟩, hwithin.append hothers⟩

end

theorem act_of_plain {a : Action τ} (h : ¬ a.Publishes) (b : Bus τ) :
    b.act a = ((b.perform a).2, [], (b.perform a).1) := by
  cases a with
  | publish e => exact absurd trivial h
  | _ => rfl

/-- Taking actions from outside comes to their doings. -/
theorem use_eq {doings : List (Doing τ)} {b after : Bus τ} {actions : List (Action τ)}
    (hd : Does b actions doings after) (hall : ∀ q ∈ doingsAll doings, q.Exact) :
    b.use actions = (after, doings.flatMap Doing.seen, doings.map Doing.answer) := by
  induction doings generalizing b actions with
  | nil =>
    obtain ⟨rfl, rfl⟩ := hd
    rfl
  | cons d rest ih =>
    cases d with
    | acted action answer =>
      obtain ⟨later, rfl, hplain, rfl, hrest⟩ := hd
      simp only [use, act_of_plain hplain, ih hrest hall]
      rfl
    | published p =>
      obtain ⟨later, rfl, rfl, hp, hrest⟩ := hd
      have hpublish := run_publication p hp fun q hq => hall q (List.mem_append_left _ hq)
      simp only [use, act, hpublish, ih hrest fun q hq => hall q (List.mem_append_right _ hq)]
      rfl

/-! ## Which subscriptions stand -/

/-- The numbers given out in some moments, in order. -/
def issued (moments : List (Moment τ)) : List SubscriptionId := moments.filterMap Moment.issued?

def WasClosed (past : List (Moment τ)) : Prop := ∃ m ∈ past, m.doing.action = .close

/-- Whether a subscription stands after some moments: its number was given out, has not been unsubscribed
since, and the bus was not closed. -/
def Stands (past : List (Moment τ)) (id : SubscriptionId) : Prop :=
  (∃ before m since, past = before ++ m :: since ∧ m.issued? = some id ∧
    ∀ n ∈ since, n.doing.action ≠ .unsubscribe id) ∧ ¬ WasClosed past

theorem issued_append (past later : List (Moment τ)) :
    issued (past ++ later) = issued past ++ issued later := List.filterMap_append

theorem issued_concat_of_none {m : Moment τ} (h : m.issued? = none) (past : List (Moment τ)) :
    issued (past ++ [m]) = issued past := by
  rw [issued_append]
  simp only [issued, List.filterMap_cons, h, List.filterMap_nil, List.append_nil]

theorem issued_concat_of_some {m : Moment τ} {id : SubscriptionId} (h : m.issued? = some id)
    (past : List (Moment τ)) : issued (past ++ [m]) = issued past ++ [id] := by
  rw [issued_append]
  simp only [issued, List.filterMap_cons, h, List.filterMap_nil]

theorem wasClosed_concat {past : List (Moment τ)} {m : Moment τ} :
    WasClosed (past ++ [m]) ↔ WasClosed past ∨ m.doing.action = .close := by
  unfold WasClosed
  constructor
  · rintro ⟨n, hn, hclose⟩
    rcases List.mem_append.1 hn with hn | hn
    · exact .inl ⟨n, hn, hclose⟩
    · obtain rfl := List.mem_singleton.1 hn
      exact .inr hclose
  · rintro (⟨n, hn, hclose⟩ | hclose)
    · exact ⟨n, List.mem_append_left _ hn, hclose⟩
    · exact ⟨m, List.mem_append_right _ (.head _), hclose⟩

/-- After one moment more, a subscription stands if it has just been made or stood and was not the one
unsubscribed, unless the bus has been closed. -/
theorem stands_concat {past : List (Moment τ)} {m : Moment τ} {id : SubscriptionId} :
    Stands (past ++ [m]) id ↔ ¬ WasClosed past ∧ m.doing.action ≠ .close ∧
      (m.issued? = some id ∨ Stands past id ∧ m.doing.action ≠ .unsubscribe id) := by
  constructor
  · rintro ⟨⟨before, n, since, hsplit, hn, hsince⟩, hopen⟩
    rw [wasClosed_concat, not_or] at hopen
    refine ⟨hopen.1, hopen.2, ?_⟩
    rcases List.eq_nil_or_concat since with rfl | ⟨since, last, rfl⟩
    · obtain ⟨-, hlast⟩ := List.append_inj' hsplit rfl
      obtain rfl : m = n := (List.cons.inj hlast).1
      exact .inl hn
    · have hsplit' : past ++ [m] = (before ++ n :: since) ++ [last] := by simpa using hsplit
      obtain ⟨rfl, hlast⟩ := List.append_inj' hsplit' rfl
      obtain rfl : m = last := (List.cons.inj hlast).1
      refine .inr ⟨⟨⟨before, n, since, rfl, hn, ?_⟩, hopen.1⟩, hsince _ (by simp)⟩
      exact fun k hk => hsince k (by simp [hk])
  · rintro ⟨hopen, hclose, hstands⟩
    refine ⟨?_, fun h => (wasClosed_concat.1 h).elim hopen hclose⟩
    rcases hstands with hissued | ⟨⟨⟨before, n, since, rfl, hn, hsince⟩, -⟩, hother⟩
    · refine ⟨past, m, [], rfl, hissued, ?_⟩
      intro k hk
      cases hk
    · refine ⟨before, n, since ++ [m], by simp, hn, ?_⟩
      intro k hk
      rcases List.mem_append.1 hk with hk | hk
      · exact hsince k hk
      · obtain rfl := List.mem_singleton.1 hk
        exact hother

/-! ## What every moment keeps -/

/-- What holds of a bus that was empty at first, after all moments since: the last number counts the numbers
given out, which grow; the subscriptions in the table are those that stand, in the order in which they were
made; and the bus is closed if it was ever closed. -/
structure Keeps (b : Bus τ) (past : List (Moment τ)) : Prop where
  counted : b.lastId.toNat = (issued past).length
  bounded : ∀ id ∈ issued past, id.number ≤ b.lastId
  fresh : (issued past).Pairwise fun x y => x.number < y.number
  order : (b.table.map (·.id)).Sublist (issued past)
  standing : ∀ id, id ∈ b.table.map (·.id) ↔ Stands past id
  closing : b.closed = true ↔ WasClosed past

namespace Keeps

variable {b : Bus τ} {past : List (Moment τ)} {m : Moment τ}

theorem nil : (empty : Bus τ).Keeps [] where
  counted := rfl
  bounded id hid := nomatch hid
  fresh := .nil
  order := .slnil
  standing id := by
    constructor
    · intro hid
      cases hid
    · rintro ⟨⟨before, n, since, hsplit, -⟩, -⟩
      simp at hsplit
  closing := by
    constructor
    · intro h
      cases h
    · rintro ⟨n, hn, -⟩
      cases hn

theorem of_sameTable {b' : Bus τ} (h : b.Keeps past) (hs : b.SameTable b') : b'.Keeps past := by
  obtain ⟨table, lastId, closed, plans⟩ := b
  obtain ⟨table', lastId', closed', plans'⟩ := b'
  obtain ⟨htable, hlast, hclosed⟩ := hs
  cases htable
  cases hlast
  cases hclosed
  exact ⟨h.counted, h.bounded, h.fresh, h.order, h.standing, h.closing⟩

/-- The table is in the order of its numbers. -/
theorem ascending (h : b.Keeps past) : (b.table.map (·.id)).Pairwise fun x y => x.number < y.number :=
  h.fresh.sublist h.order

theorem nodup (h : b.Keeps past) : (b.table.map (·.id)).Nodup := by
  refine h.ascending.imp ?_
  rintro x y hlt rfl
  exact absurd hlt (UInt64.lt_irrefl _)

theorem table_of_closed (h : b.Keeps past) (hclosed : b.closed = true) : b.table = [] := by
  cases htable : b.table with
  | nil => rfl
  | cons s rest =>
    have hstands : Stands past s.id := (h.standing s.id).1 (by simp [htable])
    exact absurd (h.closing.1 hclosed) hstands.2

/-- An action that changes no table and gives out no number. -/
theorem quiet (h : b.Keeps past) (hnext : b.SameTable m.next) (hissued : m.issued? = none)
    (hunsubscribe : ∀ id, m.doing.action ≠ .unsubscribe id) (hclose : m.doing.action ≠ .close) :
    m.next.Keeps (past ++ [m]) := by
  have hissues := issued_concat_of_none hissued past
  have hclosing : WasClosed (past ++ [m]) ↔ WasClosed past := by
    rw [wasClosed_concat, or_iff_left hclose]
  have hstanding : ∀ id, Stands (past ++ [m]) id ↔ Stands past id := by
    intro id
    rw [stands_concat, hissued]
    constructor
    · rintro ⟨-, -, h | h⟩
      · cases h
      · exact h.1
    · exact fun h => ⟨h.2, hclose, .inr ⟨h, hunsubscribe id⟩⟩
  refine of_sameTable ?_ hnext
  constructor
  case standing => exact fun id => (h.standing id).trans (hstanding id).symm
  case closing => exact h.closing.trans hclosing.symm
  all_goals rw [hissues]
  case counted => exact h.counted
  case bounded => exact h.bounded
  case fresh => exact h.fresh
  case order => exact h.order

/-- A subscription on an open bus gets the next number and the last place. -/
theorem subscribed (h : b.Keeps past) (hopen : b.closed = false) {s : Subscription τ} {after : Bus τ}
    (hissued : m.issued? = some s.id) (haction : ∃ r, m.doing.action = .subscribe r)
    (hid : s.id.number = b.lastId + 1) (htable : after.table = b.table ++ [s])
    (hlast : after.lastId = b.lastId + 1) (hclosed : after.closed = b.closed)
    (few : (issued (past ++ [m])).length < UInt64.size) : after.Keeps (past ++ [m]) := by
  obtain ⟨r, haction⟩ := haction
  have hclose : m.doing.action ≠ .close := by simp [haction]
  have hissues := issued_concat_of_some hissued past
  rw [hissues, List.length_append, List.length_singleton, ← h.counted] at few
  have hnumber : (b.lastId + 1).toNat = b.lastId.toNat + 1 := by
    rw [UInt64.toNat_add, UInt64.toNat_one]
    exact Nat.mod_eq_of_lt few
  have hlt : b.lastId < b.lastId + 1 := by
    rw [UInt64.lt_iff_toNat_lt, hnumber]
    exact Nat.lt_succ_self _
  have hnever : ¬ WasClosed past := by
    rw [← h.closing, hopen]
    exact Bool.false_ne_true
  constructor
  case counted => rw [hissues, hlast, hnumber, h.counted, List.length_append, List.length_singleton]
  case bounded =>
    intro id hmem
    rw [hissues, List.mem_append, List.mem_singleton] at hmem
    rw [hlast]
    rcases hmem with hmem | rfl
    · exact UInt64.le_of_lt (UInt64.lt_of_le_of_lt (h.bounded id hmem) hlt)
    · rw [hid]
      exact UInt64.le_refl _
  case fresh =>
    rw [hissues, List.pairwise_append]
    refine ⟨h.fresh, List.pairwise_singleton _ _, ?_⟩
    intro x hx y hy
    obtain rfl := List.mem_singleton.1 hy
    rw [hid]
    exact UInt64.lt_of_le_of_lt (h.bounded x hx) hlt
  case order =>
    rw [hissues, htable, List.map_append]
    exact h.order.append (.refl _)
  case standing =>
    intro id
    rw [htable, List.map_append, List.mem_append, h.standing, stands_concat, hissued]
    constructor
    · rintro (hstands | hnew)
      · exact ⟨hnever, hclose, .inr ⟨hstands, by simp [haction]⟩⟩
      · obtain rfl := List.mem_singleton.1 hnew
        exact ⟨hnever, hclose, .inl rfl⟩
    · rintro ⟨-, -, hnew | hstands⟩
      · exact .inr (by simp [Option.some.inj hnew])
      · exact .inl hstands.1
  case closing =>
    rw [hclosed, wasClosed_concat, or_iff_left hclose]
    exact h.closing

/-- Unsubscribing a number takes it out of the table and leaves the others in order. -/
theorem unsubscribed (h : b.Keeps past) {id : SubscriptionId} (haction : m.doing.action = .unsubscribe id)
    (hissued : m.issued? = none) : (b.unsubscribe id).2.Keeps (past ++ [m]) := by
  have hissues := issued_concat_of_none hissued past
  have hclose : m.doing.action ≠ .close := by simp [haction]
  have htable : (b.unsubscribe id).2.table.map (·.id) = (b.table.map (·.id)).filter (· ≠ id) := by
    rw [List.filter_map]
    rfl
  constructor
  case standing =>
    intro other
    rw [htable, List.mem_filter, h.standing, stands_concat, hissued, haction]
    constructor
    · rintro ⟨hstands, hne⟩
      refine ⟨hstands.2, by simp, .inr ⟨hstands, ?_⟩⟩
      intro heq
      exact of_decide_eq_true hne (Action.unsubscribe.inj heq).symm
    · rintro ⟨-, -, hnew | ⟨hstands, hne⟩⟩
      · cases hnew
      · exact ⟨hstands, decide_eq_true fun heq => hne (heq ▸ rfl)⟩
  case closing =>
    rw [wasClosed_concat, or_iff_left hclose]
    exact h.closing
  case order =>
    rw [hissues, htable]
    exact (List.filter_sublist).trans h.order
  all_goals rw [hissues]
  case counted => exact h.counted
  case bounded => exact h.bounded
  case fresh => exact h.fresh

/-- Closing empties the table, and nothing stands any more. -/
theorem closed (h : b.Keeps past) (haction : m.doing.action = .close) (hissued : m.issued? = none) :
    b.close.Keeps (past ++ [m]) := by
  have hissues := issued_concat_of_none hissued past
  constructor
  case standing =>
    intro id
    rw [stands_concat]
    constructor
    · intro hid
      cases hid
    · exact fun hstands => absurd haction hstands.2.1
  case closing => exact iff_of_true rfl (wasClosed_concat.2 (.inr haction))
  case order => exact List.nil_sublist _
  all_goals rw [hissues]
  case counted => exact h.counted
  case bounded => exact h.bounded
  case fresh => exact h.fresh

/-- Every moment keeps it, as long as the numbers last. -/
theorem moment (h : b.Keeps past) (hs : b.SameTable m.bus) (hm : m.Answered)
    (few : (issued (past ++ [m])).length < UInt64.size) : m.next.Keeps (past ++ [m]) := by
  have hbus : m.bus.Keeps past := h.of_sameTable hs
  obtain ⟨bus, doing⟩ := m
  cases doing with
  | published p => exact hbus.quiet (.refl _) rfl (by simp [Doing.action]) (by simp [Doing.action])
  | acted action answer =>
    obtain ⟨hplain, hanswer⟩ := hm
    obtain rfl : answer = (bus.perform action).1 := hanswer.symm
    cases action with
    | publish e => exact absurd trivial hplain
    | subscribe r =>
      obtain ⟨tag, kinds, plan, settled⟩ := r
      cases hclosed : bus.closed with
      | true =>
        have hrefused : bus.perform (.subscribe (.mk tag kinds plan settled)) =
            (.subscribed (.error .closed), bus) := by
          simp only [perform, subscribe, hclosed, if_true]
        refine hbus.quiet ?_ ?_ (by simp [Doing.action]) (by simp [Doing.action])
        · simp only [Moment.next, hrefused]
          exact .refl _
        · simp only [Moment.issued?, Doing.answer, hrefused]
      | false =>
        have hgiven : bus.perform (.subscribe (.mk tag kinds plan settled)) =
            (.subscribed (.ok ⟨bus.lastId + 1⟩),
              { bus with
                table := bus.table ++ [{ id := ⟨bus.lastId + 1⟩, tag, kinds, settled }]
                lastId := bus.lastId + 1
                plans := bus.plans ++ [(⟨bus.lastId + 1⟩, plan)] }) := by
          simp only [perform, subscribe, hclosed, Bool.false_eq_true, if_false]
        refine hbus.subscribed hclosed (s := { id := ⟨bus.lastId + 1⟩, tag, kinds, settled }) ?_ ⟨_, rfl⟩
          rfl ?_ ?_ ?_ few
        · simp only [Moment.issued?, Doing.answer, hgiven]
        all_goals simp only [Moment.next, hgiven]
    | unsubscribe id => exact hbus.unsubscribed rfl rfl
    | close => exact hbus.closed rfl rfl
    | count => exact hbus.quiet (.refl _) rfl (by simp [Doing.action]) (by simp [Doing.action])
    | isClosed => exact hbus.quiet (.refl _) rfl (by simp [Doing.action]) (by simp [Doing.action])

/-- What moments lead to, and what each of them is taken on. -/
theorem follows {moments : List (Moment τ)} {after : Bus τ} (h : b.Keeps past)
    (hf : b.Follows moments after) (few : (issued (past ++ moments)).length < UInt64.size) :
    after.Keeps (past ++ moments) := by
  induction moments generalizing b past with
  | nil =>
    rw [List.append_nil]
    exact h.of_sameTable hf
  | cons m rest ih =>
    obtain ⟨hs, hm, hrest⟩ := hf
    have hsplit : past ++ m :: rest = (past ++ [m]) ++ rest := by simp
    rw [hsplit] at few ⊢
    have hmoment : (issued (past ++ [m])).length < UInt64.size := by
      rw [issued_append, List.length_append] at few
      omega
    exact ih (h.moment hs hm hmoment) hrest few

end Keeps

theorem Follows.split {b after : Bus τ} {past later : List (Moment τ)} {m : Moment τ}
    (h : b.Follows (past ++ m :: later) after) :
    ∃ between, b.Follows past between ∧ between.SameTable m.bus ∧ m.Answered := by
  induction past generalizing b with
  | nil => exact ⟨b, .refl b, h.1, h.2.1⟩
  | cons n rest ih =>
    obtain ⟨between, hrest, hm⟩ := ih h.2.2
    exact ⟨between, ⟨h.1, h.2.1, hrest⟩, hm⟩

/-! ## What a bus answers -/

theorem unsubscribe_found_iff (b : Bus τ) (id : SubscriptionId) :
    (b.unsubscribe id).1 = true ↔ id ∈ b.table.map (·.id) := by
  have hkept : (b.table.filter (·.id ≠ id)).length = b.table.length ↔ id ∉ b.table.map (·.id) := by
    rw [List.length_filter_eq_length_iff, List.mem_map]
    constructor
    · rintro hall ⟨s, hs, rfl⟩
      exact of_decide_eq_true (hall s hs) rfl
    · intro hnone s hs
      exact decide_eq_true fun heq => hnone ⟨s, hs, heq⟩
  simp only [unsubscribe, decide_eq_true_eq, ne_eq, hkept, Classical.not_not]

theorem unsubscribe_of_not_mem {b : Bus τ} {id : SubscriptionId} (h : id ∉ b.table.map (·.id)) :
    (b.unsubscribe id).2.table = b.table := by
  refine List.filter_eq_self.2 fun s hs => decide_eq_true ?_
  rintro rfl
  exact h (List.mem_map_of_mem hs)

/-- Where no number stands twice, unsubscribing takes out one entry and leaves those before and after
it. -/
theorem unsubscribe_of_mem {b : Bus τ} {id : SubscriptionId} (hnodup : (b.table.map (·.id)).Nodup)
    (h : id ∈ b.table.map (·.id)) : ∃ front s back, b.table = front ++ s :: back ∧ s.id = id ∧
      (b.unsubscribe id).2.table = front ++ back := by
  obtain ⟨s, hs, rfl⟩ := List.mem_map.1 h
  obtain ⟨front, back, hsplit⟩ := List.append_of_mem hs
  refine ⟨front, s, back, hsplit, rfl, ?_⟩
  rw [hsplit, List.map_append, List.map_cons, List.nodup_append] at hnodup
  obtain ⟨-, hback, hfront⟩ := hnodup
  have hbefore : front.filter (·.id ≠ s.id) = front := by
    refine List.filter_eq_self.2 fun t ht => decide_eq_true ?_
    exact hfront _ (List.mem_map_of_mem ht) _ (.head _)
  have hafter : back.filter (·.id ≠ s.id) = back := by
    refine List.filter_eq_self.2 fun t ht => decide_eq_true ?_
    intro heq
    exact (List.nodup_cons.1 hback).1 (heq ▸ List.mem_map_of_mem ht)
  simp only [unsubscribe, hsplit, List.filter_append, hbefore]
  rw [List.filter_cons_of_neg (by simp), hafter]

/-- What the bus promises of an action taken after others, on a use that began with the empty bus. The
table is in the order of its numbers, which is that in which they were given out. A number is found exactly
if its subscription stands, and then its one entry goes and the others stay in order. Once the bus has been
closed the table is empty, and subscribing and publishing are refused. -/
structure Moment.Regular (past : List (Moment τ)) (m : Moment τ) : Prop where
  ascending : (m.bus.table.map (·.id)).Pairwise fun x y => x.number < y.number
  order : (m.bus.table.map (·.id)).Sublist (issued past)
  found : ∀ id, m.doing.action = .unsubscribe id →
    ∃ found, m.doing.answer = .found found ∧ (found = true ↔ Stands past id)
  removed : ∀ id, m.doing.action = .unsubscribe id → m.doing.answer = .found true →
    ∃ front s back, m.bus.table = front ++ s :: back ∧ s.id = id ∧ m.next.table = front ++ back
  untouched : ∀ id, m.doing.action = .unsubscribe id → m.doing.answer = .found false →
    m.next.table = m.bus.table
  emptied : WasClosed past → m.bus.table = []
  refused : WasClosed past → ∀ r, m.doing.action = .subscribe r →
    m.doing.answer = .subscribed (.error .closed)
  unpublished : WasClosed past → ∀ e, m.doing.action = .publish e →
    m.doing.answer = .published (.error .closed)

theorem Keeps.regular {past : List (Moment τ)} {m : Moment τ} (h : m.bus.Keeps past)
    (hm : m.Answered) : m.Regular past := by
  obtain ⟨bus, doing⟩ := m
  have hunsubscribe : ∀ id, doing.action = .unsubscribe id →
      doing = .acted (.unsubscribe id) (.found (bus.unsubscribe id).1) := by
    intro id haction
    cases doing with
    | published p => cases haction
    | acted action answer =>
      obtain rfl : action = .unsubscribe id := haction
      exact congrArg (Doing.acted _) hm.2.symm
  constructor
  case ascending => exact h.ascending
  case order => exact h.order
  case found =>
    intro id haction
    obtain rfl := hunsubscribe id haction
    exact ⟨_, rfl, (unsubscribe_found_iff bus id).trans (h.standing id)⟩
  case removed =>
    intro id haction hanswer
    obtain rfl := hunsubscribe id haction
    exact unsubscribe_of_mem h.nodup ((unsubscribe_found_iff bus id).1 (Answer.found.inj hanswer))
  case untouched =>
    intro id haction hanswer
    obtain rfl := hunsubscribe id haction
    have hnot : ¬ (bus.unsubscribe id).1 = true := by simp [Answer.found.inj hanswer]
    exact unsubscribe_of_not_mem fun hmem => hnot ((unsubscribe_found_iff bus id).2 hmem)
  case emptied => exact fun hclosed => h.table_of_closed (h.closing.2 hclosed)
  case refused =>
    intro hclosed r haction
    have hshut : bus.closed = true := h.closing.2 hclosed
    cases doing with
    | published p => cases haction
    | acted action answer =>
      obtain rfl : action = .subscribe r := haction
      obtain ⟨tag, kinds, plan, settled⟩ := r
      obtain ⟨-, hanswer⟩ := hm
      simp only [perform, subscribe, hshut, if_true] at hanswer
      exact hanswer.symm
  case unpublished =>
    intro hclosed e haction
    have hshut : bus.closed = true := h.closing.2 hclosed
    cases doing with
    | published p =>
      obtain ⟨hstart, hexact⟩ := hm
      obtain ⟨-, -, hresult⟩ := hexact.refused ((congrArg Bus.closed hstart).trans hshut)
      exact congrArg Answer.published hresult
    | acted action answer =>
      obtain rfl : action = .publish e := haction
      exact absurd trivial hm.1

/-! ## Whole uses -/

mutual

/-- No more actions are taken during a publication than handlers had planned. -/
theorem length_publication_le (p : Publication τ) (hp : p.Happens) :
    p.moments.length + plansWeight p.finish.plans ≤ plansWeight p.start.plans := by
  obtain ⟨b, e, deliveries, after, result⟩ := p
  exact length_deliveries_le deliveries hp

/-- A delivery takes its actions out of what was planned. -/
theorem length_deliveries_le (deliveries : List (Delivery τ)) {b after : Bus τ}
    (hd : Delivers b deliveries after) :
    (deliveriesMoments b deliveries).length + plansWeight after.plans ≤ plansWeight b.plans := by
  match deliveries with
  | [] =>
    obtain rfl : after = b := hd
    exact Nat.le_of_eq (Nat.zero_add _)
  | .mk receiver doings failure :: rest =>
    obtain ⟨actions, between, hreact, hdo, hrest⟩ := hd
    have hweight := plansWeight_react b receiver
    have hfirst := length_doings_le doings hdo
    have hothers := length_deliveries_le rest hrest
    rw [hreact] at hweight
    simp only [Reaction.weight] at hweight
    simp only [deliveriesMoments, leave_of_does hdo, List.length_append]
    omega

/-- No more actions are taken than were asked for or planned. -/
theorem length_doings_le (doings : List (Doing τ)) {b after : Bus τ} {actions : List (Action τ)}
    (hd : Does b actions doings after) :
    (doingsMoments b doings).length + plansWeight after.plans ≤
      plansWeight b.plans + actionsWeight actions := by
  match doings with
  | [] =>
    obtain ⟨rfl, rfl⟩ := hd
    exact Nat.le_of_eq (Nat.zero_add _)
  | .acted action answer :: rest =>
    obtain ⟨later, rfl, -, -, hrest⟩ := hd
    have hweight := plansWeight_perform_lt b action
    have hothers := length_doings_le rest hrest
    simp only [doingsMoments, actionsWeight, List.length_cons]
    omega
  | .published p :: rest =>
    obtain ⟨later, rfl, rfl, hp, hrest⟩ := hd
    have hwithin := length_publication_le p hp
    have hothers := length_doings_le rest hrest
    simp only [doingsMoments, actionsWeight, Action.weight, List.length_cons, List.length_append]
    omega

end

/-- The numbers given out over a use from the empty bus are no more than the actions asked for and those
planned by the handlers in them. -/
theorem length_issued_le {actions : List (Action τ)} {doings : List (Doing τ)} {after : Bus τ}
    (hd : Does (empty : Bus τ) actions doings after) :
    (issued (doingsMoments empty doings)).length ≤ actionsWeight actions := by
  have htaken := length_doings_le doings hd
  have hissued : (issued (doingsMoments empty doings)).length ≤ (doingsMoments empty doings).length :=
    List.length_filterMap_le _ _
  have hplans : plansWeight (empty : Bus τ).plans = 0 := rfl
  omega

/-- Whatever is done on a bus that was empty at first, by whom and within whichever deliveries: as long as
the numbers last, none is given out twice and they grow, every action finds the table in order and is
answered by which subscriptions then stand, and a bus once closed stays closed and empty. -/
theorem subscriptions_stay_in_order (actions : List (Action τ)) :
    ∃ doings after, Does (empty : Bus τ) actions doings after ∧
      (empty : Bus τ).use actions = (after, doings.flatMap Doing.seen, doings.map Doing.answer) ∧
      (empty : Bus τ).Follows (doingsMoments empty doings) after ∧
      ((issued (doingsMoments empty doings)).length < UInt64.size →
        (issued (doingsMoments empty doings)).Pairwise (fun x y => x.number < y.number) ∧
        (∀ past m later, doingsMoments empty doings = past ++ m :: later → m.Regular past) ∧
        (after.table.map (·.id)).Pairwise (fun x y => x.number < y.number) ∧
        (WasClosed (doingsMoments empty doings) → after.closed = true ∧ after.table = [])) := by
  obtain ⟨doings, after, hdo, hall, -⟩ := reactionsEnd (τ := τ) _ empty actions (Nat.le_refl _)
  have hfollows := follows_doings doings hdo hall
  refine ⟨doings, after, hdo, use_eq hdo hall, hfollows, fun few => ?_⟩
  have hend : after.Keeps (doingsMoments empty doings) := Keeps.nil.follows hfollows few
  refine ⟨hend.fresh, ?_, hend.ascending, ?_⟩
  · intro past m later hsplit
    rw [hsplit] at hfollows few
    obtain ⟨between, hpast, hs, hm⟩ := hfollows.split
    have hlast : (issued past).length < UInt64.size := by
      rw [issued_append, List.length_append] at few
      omega
    exact ((Keeps.nil.follows hpast hlast).of_sameTable hs).regular hm
  · intro hclosed
    have hshut : after.closed = true := hend.closing.2 hclosed
    exact ⟨hshut, hend.table_of_closed hshut⟩

/-- An event that nothing hangs on. -/
def tidings : Event :=
  { id := "evt-1", kind := .known .instanceCreated, tenant := "acme", timestamp := ⟨0, 0⟩ }

/-- A handler that, at its first delivery, leaves, has another one subscribed, publishes once more and
closes the bus under the delivery that reached it. -/
def restless : Subscriber String :=
  .mk "restless" []
    [.mk [.unsubscribe ⟨1⟩, .subscribe (.plain "late" [] none), .publish tidings, .close, .unsubscribe ⟨2⟩]
      none] none

/-- Two subscriptions, a publication that upsets the table, and attempts to go on after it. -/
def upheaval : List (Action String) :=
  [.subscribe restless, .subscribe (.plain "steady" [] (some "full")), .unsubscribe ⟨3⟩, .publish tidings,
   .unsubscribe ⟨3⟩, .subscribe (.plain "later" [] none), .publish tidings]

theorem subscriptions_stay_in_order_closed_within :
    ∃ doings after, Does (empty : Bus String) upheaval doings after ∧
      (empty : Bus String).use upheaval =
        (after, doings.flatMap Doing.seen, doings.map Doing.answer) ∧
      (issued (doingsMoments empty doings)).length < UInt64.size ∧
      (issued (doingsMoments empty doings)).Pairwise (fun x y => x.number < y.number) ∧
      (∀ past m later, doingsMoments empty doings = past ++ m :: later → m.Regular past) ∧
      (after.table.map (·.id)).Pairwise (fun x y => x.number < y.number) := by
  obtain ⟨doings, after, hdo, huse, -, hregular⟩ := subscriptions_stay_in_order upheaval
  have few : (issued (doingsMoments empty doings)).length < UInt64.size :=
    Nat.lt_of_le_of_lt (length_issued_le hdo) (by decide)
  obtain ⟨hfresh, hmoments, hascending, -⟩ := hregular few
  exact ⟨doings, after, hdo, huse, few, hfresh, hmoments, hascending⟩

end Fleet.Bus
